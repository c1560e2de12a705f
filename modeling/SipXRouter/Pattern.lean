import SipXRouter.Bytes
import Mathlib.Computability.Language

/-!
# Backtracking patterns with captures

A small model of the part of a Perl-compatible regular expression engine that
parsing code relies on: greedy repetition, ordered alternatives, possessive
(`x++`) sub-patterns, capturing groups, a positive look-ahead and the two
anchors.

`run` lists every way a pattern can match at the front of a text, in the order
in which a backtracking matcher would find them; `matchAt` is the first of
them and `search` the leftmost.  Three kinds of rule are provided for it.

* **Inversion** (`mem_run_seq`, `mem_run_group`, …): a match taken apart along its
  pattern.
* **Soundness** (`append_of_mem_run`, `sound_of_mem_run`): a match is a prefix of
  the subject, and the matched and captured texts are in the language of their
  sub-pattern.
* **Completeness** (`exists_mem_run`): every text in the language of a plain
  pattern is matched, whatever follows it.

The engine's limit on its recursion depth is not modelled.
-/

namespace SipXRouter

open List

/-- The syntax of patterns. -/
inductive Pattern where
  | eps
  /-- one byte of a class -/
  | cls (p : Byte → Bool)
  | seq (a b : Pattern)
  /-- ordered alternatives `a|b` -/
  | alt (a b : Pattern)
  /-- greedy `a*` -/
  | star (a : Pattern)
  /-- capturing group number `k` -/
  | group (k : Nat) (a : Pattern)
  /-- `(?>a)`: only the first match of `a` is tried -/
  | atomic (a : Pattern)
  /-- `(?=a)` -/
  | look (a : Pattern)
  /-- `^` -/
  | bol
  /-- `$`: the end, or before a newline that ends the subject -/
  | eol

/-- A match: what was matched, what follows it, and the captures, latest first. -/
structure Match where
  text : Text
  rest : Text
  caps : List (Nat × Text)
deriving DecidableEq

namespace Match

/-- One match after another. -/
def append (m m' : Match) : Match := ⟨m.text ++ m'.text, m'.rest, m'.caps ++ m.caps⟩

/-- The text captured by group `k` (`RegEx::MatchString`). -/
def group (m : Match) (k : Nat) : Option Text := m.caps.lookup k

/-- One more than the highest group that took part (`RegEx::Matches`). -/
def matchCount (m : Match) : Nat := m.caps.foldr (fun c acc => max (c.1 + 1) acc) 1

@[simp] theorem append_text (m m' : Match) : (m.append m').text = m.text ++ m'.text := rfl

@[simp] theorem append_rest (m m' : Match) : (m.append m').rest = m'.rest := rfl

@[simp] theorem append_caps (m m' : Match) : (m.append m').caps = m'.caps ++ m.caps := rfl

end Match

variable {a b p : Pattern} {k n : Nat} {m : Match} {s t tail w : Text}

namespace Pattern

/-- Greedy repetition of a matcher: the ways with most rounds come first.  A
round that matches nothing is not repeated. -/
def iter (f : Nat → Text → List Match) : Nat → Nat → Text → List Match
  | 0, _, s => [⟨[], s, []⟩]
  | k + 1, n, s =>
    (f n s).flatMap (fun m =>
      if m.text = [] then []
      else (iter f k (n + m.text.length) m.rest).map m.append) ++ [⟨[], s, []⟩]

/-- All matches of a pattern at the front of `s`, which stands at offset `n` of
its subject, in the order a backtracking matcher finds them. -/
def run : Pattern → Nat → Text → List Match
  | eps, _, s => [⟨[], s, []⟩]
  | cls _, _, [] => []
  | cls p, _, c :: cs => if p c then [⟨[c], cs, []⟩] else []
  | seq a b, n, s =>
    (run a n s).flatMap fun m => (run b (n + m.text.length) m.rest).map m.append
  | alt a b, n, s => run a n s ++ run b n s
  | star a, n, s => iter (run a) s.length n s
  | group k a, n, s => (run a n s).map fun m => { m with caps := (k, m.text) :: m.caps }
  | atomic a, n, s => (run a n s).take 1
  | look a, n, s => (run a n s).take 1 |>.map fun m => ⟨[], s, m.caps⟩
  | bol, n, s => if n = 0 then [⟨[], s, []⟩] else []
  | eol, _, s => if s = [] ∨ s = [10] then [⟨[], s, []⟩] else []

/-- A repetition takes as much as it can first and gives it back piece by piece. -/
example : run (star (cls isDigit)) 0 (text "7a") =
    [⟨text "7", text "a", []⟩, ⟨[], text "7a", []⟩] := by
  simp only [run]
  rfl

/-- The match a matcher finds at the front of `s`. -/
def matchAt (p : Pattern) (s : Text) : Option Match := (run p 0 s).head?

/-- The leftmost match at or after offset `n`. -/
def searchFrom (p : Pattern) : Nat → Text → Option Match
  | n, [] => (run p n []).head?
  | n, c :: cs => (run p n (c :: cs)).head?.or (searchFrom p (n + 1) cs)

/-- The leftmost match in a subject. -/
def search (p : Pattern) (s : Text) : Option Match := searchFrom p 0 s

/-! ## Derived forms -/

/-- The pattern of a literal text. -/
def lit (s : String) : Pattern :=
  (text s).foldr (fun c p => seq (cls (· == c)) p) eps

/-- `a?`, greedy. -/
def opt (a : Pattern) : Pattern := alt a eps

/-- `a+`, greedy. -/
def plus (a : Pattern) : Pattern := seq a (star a)

/-- `[p]++`. -/
def possessive (p : Byte → Bool) : Pattern := atomic (plus (cls p))

/-- `a{n}`. -/
def times : Nat → Pattern → Pattern
  | 0, _ => eps
  | n + 1, a => seq a (times n a)

/-- `a{0,n}`, greedy. -/
def upTo : Nat → Pattern → Pattern
  | 0, _ => eps
  | n + 1, a => opt (seq a (upTo n a))

/-- Concatenation of several patterns. -/
def cat (ps : List Pattern) : Pattern := ps.foldr seq eps

/-- Ordered choice among several patterns. -/
def choice : List Pattern → Pattern
  | [] => cls fun _ => false
  | [a] => a
  | a :: as => alt a (choice as)

/-! ## Inversion -/

theorem mem_run_eps : m ∈ run eps n s ↔ m = ⟨[], s, []⟩ := by
  simp [run]

theorem mem_run_cls {p : Byte → Bool} :
    m ∈ run (cls p) n s ↔ ∃ c cs, s = c :: cs ∧ p c = true ∧ m = ⟨[c], cs, []⟩ := by
  cases s with
  | nil => simp [run]
  | cons c cs =>
    by_cases hc : p c = true
    · constructor
      · intro hm
        exact ⟨c, cs, rfl, hc, by simpa [run, hc] using hm⟩
      · rintro ⟨c', cs', heq, -, rfl⟩
        cases heq
        simp [run, hc]
    · constructor
      · intro hm
        simp [run, hc] at hm
      · rintro ⟨c', cs', heq, hc', -⟩
        cases heq
        exact absurd hc' hc

theorem mem_run_seq : m ∈ run (seq a b) n s ↔
    ∃ m₁ ∈ run a n s, ∃ m₂ ∈ run b (n + m₁.text.length) m₁.rest, m = m₁.append m₂ := by
  simp only [run, mem_flatMap, mem_map, eq_comm]

theorem mem_run_group : m ∈ run (group k a) n s ↔
    ∃ m₁ ∈ run a n s, m = ⟨m₁.text, m₁.rest, (k, m₁.text) :: m₁.caps⟩ := by
  simp only [run, mem_map, eq_comm]

theorem mem_run_bol : m ∈ run bol n s ↔ n = 0 ∧ m = ⟨[], s, []⟩ := by
  by_cases hn : n = 0 <;> simp [run, hn]

theorem mem_run_eol : m ∈ run eol n s ↔ (s = [] ∨ s = [10]) ∧ m = ⟨[], s, []⟩ := by
  by_cases hs : s = [] ∨ s = [10] <;> simp [run, hs]

theorem exists_matchAt {P : Match → Prop} (hex : ∃ m, m ∈ run p 0 s)
    (hall : ∀ m ∈ run p 0 s, P m) : ∃ m, matchAt p s = some m ∧ P m := by
  obtain ⟨m, hm⟩ := hex
  cases hrun : run p 0 s with
  | nil => simp [hrun] at hm
  | cons m' ms => exact ⟨m', by simp [matchAt, hrun], hall m' (by simp [hrun])⟩

theorem mem_run_of_matchAt (h : matchAt p s = some m) : m ∈ run p 0 s :=
  mem_of_head? h

theorem search_of_matchAt (h : matchAt p s = some m) : search p s = some m := by
  unfold matchAt at h
  cases s with
  | nil => exact h
  | cons c cs => rw [search, searchFrom, h, Option.some_or]

/-- A pattern that starts with `^` is found at the front or not at all. -/
theorem search_bol (p : Pattern) (s : Text) : search (seq bol p) s = matchAt (seq bol p) s := by
  have hlater : ∀ (s : Text) (n : Nat), searchFrom (seq bol p) (n + 1) s = none := by
    intro s
    induction s with
    | nil => intro n; simp [searchFrom, run]
    | cons c cs ih => intro n; simp [searchFrom, run, ih]
  cases s with
  | nil => rfl
  | cons c cs => simp [search, searchFrom, matchAt, hlater]

/-! ## Soundness -/

/-- **A repetition** is nothing, or a round with a repetition behind it. -/
theorem iter_induction {f : Nat → Text → List Match} {P : Nat → Text → Match → Prop}
    (hend : ∀ n s, P n s ⟨[], s, []⟩) (hround : ∀ n s m₁ m₂, m₁ ∈ f n s →
      P (n + m₁.text.length) m₁.rest m₂ → P n s (m₁.append m₂)) :
    ∀ k n s m, m ∈ iter f k n s → P n s m := by
  intro k
  induction k with
  | zero =>
    intro n s m hm
    obtain rfl := mem_singleton.mp hm
    exact hend n s
  | succ k ih =>
    intro n s m hm
    simp only [iter, mem_append, mem_flatMap, mem_singleton] at hm
    rcases hm with ⟨m₁, hm₁, hm⟩ | rfl
    · split at hm
      · simp at hm
      · obtain ⟨m₂, hm₂, rfl⟩ := mem_map.mp hm
        exact hround n s m₁ m₂ hm₁ (ih _ _ m₂ hm₂)
    · exact hend n s

theorem iter_append {f : Nat → Text → List Match} (hf : ∀ n s m, m ∈ f n s → s = m.text ++ m.rest) :
    ∀ (k n : Nat) (s : Text) (m : Match), m ∈ iter f k n s → s = m.text ++ m.rest := by
  refine iter_induction (fun _ _ => rfl) fun n s m₁ m₂ hm₁ ih => ?_
  rw [Match.append_text, Match.append_rest, append_assoc, ← ih, ← hf _ _ _ hm₁]

/-- A match is a prefix of the text, and its rest the rest. -/
theorem append_of_mem_run :
    ∀ {n : Nat} {s : Text} {m : Match}, m ∈ run p n s → s = m.text ++ m.rest := by
  induction p with
  | eps => intro n s m hm; simp only [run, mem_singleton] at hm; simp [hm]
  | cls q =>
    intro n s m hm
    cases s with
    | nil => simp [run] at hm
    | cons c cs =>
      simp only [run] at hm
      split at hm
      · simp only [mem_singleton] at hm; simp [hm]
      · simp at hm
  | seq a b iha ihb =>
    intro n s m hm
    simp only [run, mem_flatMap, mem_map] at hm
    obtain ⟨m₁, hm₁, m₂, hm₂, rfl⟩ := hm
    rw [Match.append_text, Match.append_rest, append_assoc, ← ihb hm₂, ← iha hm₁]
  | alt a b iha ihb =>
    intro n s m hm
    simp only [run, mem_append] at hm
    rcases hm with hm | hm
    · exact iha hm
    · exact ihb hm
  | star a iha =>
    intro n s m hm
    exact iter_append (fun _ _ _ h => iha h) _ _ _ _ hm
  | group k a iha =>
    intro n s m hm
    simp only [run, mem_map] at hm
    obtain ⟨m₁, hm₁, rfl⟩ := hm
    exact (iha hm₁ : s = m₁.text ++ m₁.rest)
  | atomic a iha => intro n s m hm; exact iha (mem_of_mem_take hm)
  | look a iha =>
    intro n s m hm
    simp only [run, mem_map] at hm
    obtain ⟨m₁, -, rfl⟩ := hm
    simp
  | bol =>
    intro n s m hm
    simp only [run] at hm
    split at hm
    · simp only [mem_singleton] at hm; simp [hm]
    · simp at hm
  | eol =>
    intro n s m hm
    simp only [run] at hm
    split at hm
    · simp only [mem_singleton] at hm; simp [hm]
    · simp at hm

theorem searchFrom_append : ∀ {n : Nat}, searchFrom p n s = some m →
    ∃ before k, s = before ++ (m.text ++ m.rest) ∧ m ∈ run p k (m.text ++ m.rest) := by
  induction s with
  | nil =>
    intro n h
    have hm := mem_of_head? h
    have happ := append_of_mem_run hm
    exact ⟨[], n, by simpa using happ, by rwa [← happ]⟩
  | cons c cs ih =>
    intro n h
    rw [searchFrom, Option.or_eq_some_iff] at h
    rcases h with h | ⟨-, h⟩
    · have hm := mem_of_head? h
      have happ := append_of_mem_run hm
      exact ⟨[], n, by simpa using happ, by rwa [← happ]⟩
    · obtain ⟨before, k, hs, hm⟩ := ih h
      exact ⟨c :: before, k, by rw [hs]; rfl, hm⟩

/-! ## Languages -/

/-- The texts a pattern can match, anchors and look-ahead aside. -/
def lang : Pattern → Language Byte
  | eps => 1
  | cls p => {t | ∃ c, p c = true ∧ t = [c]}
  | seq a b => lang a * lang b
  | alt a b => lang a + lang b
  | star a => KStar.kstar (lang a)
  | group _ a => lang a
  | atomic a => lang a
  | look _ => 1
  | bol => 1
  | eol => 1

/-- The capturing groups of a pattern, with their bodies. -/
def groups : Pattern → List (Nat × Pattern)
  | seq a b => groups a ++ groups b
  | alt a b => groups a ++ groups b
  | star a => groups a
  | group k a => (k, a) :: groups a
  | atomic a => groups a
  | look a => groups a
  | _ => []

/-- What soundness says of one match: its text is in the language, and each
capture is in the language of a group of that number. -/
def SoundMatch (p : Pattern) (m : Match) : Prop :=
  m.text ∈ lang p ∧ ∀ k t, (k, t) ∈ m.caps → ∃ body, (k, body) ∈ groups p ∧ t ∈ lang body

theorem iter_sound {f : Nat → Text → List Match} (hf : ∀ n s m, m ∈ f n s → SoundMatch p m) :
    ∀ (k n : Nat) (s : Text) (m : Match), m ∈ iter f k n s → SoundMatch (star p) m := by
  refine iter_induction (fun _ _ => ⟨Language.nil_mem_kstar _, by simp⟩)
    fun n s m₁ m₂ hm₁ ih => ⟨?_, fun j t hjt => ?_⟩
  · obtain ⟨pieces, hflat, hpieces⟩ := Language.mem_kstar.mp ih.1
    refine Language.mem_kstar.mpr ⟨m₁.text :: pieces, by simp [hflat], fun y hy => ?_⟩
    rcases mem_cons.mp hy with rfl | hy
    · exact (hf _ _ _ hm₁).1
    · exact hpieces y hy
  · rcases mem_append.mp hjt with hjt | hjt
    · exact ih.2 j t hjt
    · exact (hf _ _ _ hm₁).2 j t hjt

/-- A match is in the language of its pattern, and its groups in those of theirs. -/
theorem sound_of_mem_run : ∀ {n : Nat} {s : Text} {m : Match}, m ∈ run p n s → SoundMatch p m := by
  induction p with
  | eps =>
    intro n s m hm
    simp only [run, mem_singleton] at hm
    subst hm
    exact ⟨Language.nil_mem_one, by simp⟩
  | cls q =>
    intro n s m hm
    cases s with
    | nil => simp [run] at hm
    | cons c cs =>
      simp only [run] at hm
      split at hm
      · next hq =>
          simp only [mem_singleton] at hm
          subst hm
          exact ⟨⟨c, hq, rfl⟩, by simp⟩
      · simp at hm
  | seq a b iha ihb =>
    intro n s m hm
    simp only [run, mem_flatMap, mem_map] at hm
    obtain ⟨m₁, hm₁, m₂, hm₂, rfl⟩ := hm
    obtain ⟨ht₁, hc₁⟩ := iha hm₁
    obtain ⟨ht₂, hc₂⟩ := ihb hm₂
    refine ⟨Language.append_mem_mul ht₁ ht₂, ?_⟩
    intro k t hkt
    rcases mem_append.mp hkt with hkt | hkt
    · obtain ⟨body, hb, ht⟩ := hc₂ k t hkt
      exact ⟨body, mem_append_right _ hb, ht⟩
    · obtain ⟨body, hb, ht⟩ := hc₁ k t hkt
      exact ⟨body, mem_append_left _ hb, ht⟩
  | alt a b iha ihb =>
    intro n s m hm
    simp only [run, mem_append] at hm
    rcases hm with hm | hm
    · obtain ⟨ht, hc⟩ := iha hm
      refine ⟨Or.inl ht, fun k t hkt => ?_⟩
      obtain ⟨body, hb, ht⟩ := hc k t hkt
      exact ⟨body, mem_append_left _ hb, ht⟩
    · obtain ⟨ht, hc⟩ := ihb hm
      refine ⟨Or.inr ht, fun k t hkt => ?_⟩
      obtain ⟨body, hb, ht⟩ := hc k t hkt
      exact ⟨body, mem_append_right _ hb, ht⟩
  | star a iha =>
    intro n s m hm
    exact iter_sound (fun _ _ _ h => iha h) _ _ _ _ hm
  | group k a iha =>
    intro n s m hm
    simp only [run, mem_map] at hm
    obtain ⟨m₁, hm₁, rfl⟩ := hm
    obtain ⟨ht, hc⟩ := iha hm₁
    refine ⟨ht, fun j t hjt => ?_⟩
    rcases mem_cons.mp hjt with h | hjt
    · cases h
      exact ⟨a, mem_cons_self, ht⟩
    · obtain ⟨body, hb, ht⟩ := hc j t hjt
      exact ⟨body, mem_cons_of_mem _ hb, ht⟩
  | atomic a iha => intro n s m hm; exact iha (mem_of_mem_take hm)
  | look a iha =>
    intro n s m hm
    simp only [run, mem_map] at hm
    obtain ⟨m₁, hm₁, rfl⟩ := hm
    exact ⟨Language.nil_mem_one, (iha (mem_of_mem_take hm₁)).2⟩
  | bol =>
    intro n s m hm
    simp only [run] at hm
    split at hm
    · simp only [mem_singleton] at hm; subst hm; exact ⟨Language.nil_mem_one, by simp⟩
    · simp at hm
  | eol =>
    intro n s m hm
    simp only [run] at hm
    split at hm
    · simp only [mem_singleton] at hm; subst hm; exact ⟨Language.nil_mem_one, by simp⟩
    · simp at hm

theorem caps_eq_nil (hp : groups p = []) (hm : m ∈ run p n s) : m.caps = [] := by
  rw [eq_nil_iff_forall_not_mem]
  rintro ⟨k, t⟩ hkt
  obtain ⟨body, hbody, -⟩ := (sound_of_mem_run hm).2 k t hkt
  rw [hp] at hbody
  exact not_mem_nil hbody

theorem exists_of_group (hm : m ∈ run p n s) (ht : m.group k = some t) :
    ∃ body, (k, body) ∈ groups p ∧ t ∈ lang body := by
  obtain ⟨front, back, hcaps, -⟩ := lookup_eq_some_iff.mp ht
  exact (sound_of_mem_run hm).2 k t (by simp [hcaps])

theorem isSome_group_of_mem_run
    (hm : m ∈ run (seq (group k a) b) n s) : (m.group k).isSome = true := by
  obtain ⟨m₁, hm₁, m₂, -, rfl⟩ := mem_run_seq.mp hm
  obtain ⟨m₀, -, heq⟩ := mem_run_group.mp hm₁
  refine lookup_isSome_iff.mpr ⟨(k, m₀.text), ?_, by simp⟩
  simp [heq]

theorem text_mem_lang (hm : m ∈ run p n s) : m.text ∈ lang p :=
  (sound_of_mem_run hm).1

/-! ### Repeated classes -/

theorem mem_lang_star_cls {p : Byte → Bool} : t ∈ lang (star (cls p)) ↔ ∀ c ∈ t, p c = true := by
  constructor
  · intro ht
    obtain ⟨pieces, rfl, hpieces⟩ := Language.mem_kstar.mp ht
    intro c hc
    obtain ⟨piece, hpiece, hc⟩ := mem_flatten.mp hc
    obtain ⟨d, hd, rfl⟩ := hpieces piece hpiece
    rw [mem_singleton.mp hc]
    exact hd
  · intro ht
    refine Language.mem_kstar.mpr ⟨t.map ([·]), ?_, ?_⟩
    · induction t with
      | nil => rfl
      | cons c cs ih => simp [← ih fun d hd => ht d (by simp [hd])]
    · intro piece hpiece
      obtain ⟨c, hc, rfl⟩ := mem_map.mp hpiece
      exact ⟨c, ht c hc, rfl⟩

theorem mem_lang_seq :
    t ∈ lang (seq a b) ↔ ∃ u ∈ lang a, ∃ v ∈ lang b, u ++ v = t := Language.mem_mul

theorem mem_lang_eps : t ∈ lang eps ↔ t = [] := Language.mem_one t

theorem mem_lang_plus_cls {p : Byte → Bool} :
    t ∈ lang (plus (cls p)) ↔ t ≠ [] ∧ ∀ c ∈ t, p c = true := by
  constructor
  · intro ht
    obtain ⟨u, ⟨c, hc, rfl⟩, v, hv, rfl⟩ := mem_lang_seq.mp ht
    rw [mem_lang_star_cls] at hv
    refine ⟨by simp, ?_⟩
    intro d hd
    rcases mem_append.mp hd with hd | hd
    · rw [mem_singleton.mp hd]
      exact hc
    · exact hv d hd
  · rintro ⟨hne, ht⟩
    obtain ⟨c, cs, rfl⟩ := exists_cons_of_ne_nil hne
    refine mem_lang_seq.mpr ⟨[c], ⟨c, ht c (by simp), rfl⟩, cs, ?_, rfl⟩
    exact mem_lang_star_cls.mpr fun d hd => ht d (by simp [hd])

theorem mem_lang_times_cls {p : Byte → Bool} :
    t ∈ lang (times k (cls p)) ↔ t.length = k ∧ ∀ c ∈ t, p c = true := by
  induction k generalizing t with
  | zero =>
    rw [times, mem_lang_eps]
    constructor
    · rintro rfl
      simp
    · rintro ⟨hlen, -⟩
      exact eq_nil_of_length_eq_zero hlen
  | succ k ih =>
    rw [times, mem_lang_seq]
    constructor
    · rintro ⟨u, ⟨c, hc, rfl⟩, v, hv, rfl⟩
      obtain ⟨hlen, hv⟩ := ih.mp hv
      refine ⟨by simp [hlen], ?_⟩
      intro d hd
      rcases mem_cons.mp hd with rfl | hd
      · exact hc
      · exact hv d hd
    · rintro ⟨hlen, ht⟩
      obtain ⟨c, cs, rfl⟩ := exists_of_length_succ t hlen
      refine ⟨[c], ⟨c, ht c (by simp), rfl⟩, cs, ih.mpr ⟨by simpa using hlen, ?_⟩, rfl⟩
      exact fun d hd => ht d (by simp [hd])

theorem mem_lang_upTo_cls {p : Byte → Bool} :
    t ∈ lang (upTo k (cls p)) ↔ t.length ≤ k ∧ ∀ c ∈ t, p c = true := by
  induction k generalizing t with
  | zero =>
    rw [upTo, mem_lang_eps]
    constructor
    · rintro rfl
      simp
    · rintro ⟨hlen, -⟩
      exact eq_nil_of_length_eq_zero (Nat.le_zero.mp hlen)
  | succ k ih =>
    constructor
    · rintro (ht | ht)
      · obtain ⟨u, ⟨c, hc, rfl⟩, v, hv, rfl⟩ := mem_lang_seq.mp ht
        obtain ⟨hlen, hv⟩ := ih.mp hv
        refine ⟨by simp [hlen], ?_⟩
        intro d hd
        rcases mem_cons.mp hd with rfl | hd
        · exact hc
        · exact hv d hd
      · rw [mem_lang_eps.mp ht]
        simp
    · rintro ⟨hlen, ht⟩
      cases t with
      | nil => exact Or.inr (mem_lang_eps.mpr rfl)
      | cons c cs =>
        refine Or.inl (mem_lang_seq.mpr ⟨[c], ⟨c, ht c (by simp), rfl⟩, cs, ?_, rfl⟩)
        exact ih.mpr ⟨by simpa using hlen, fun d hd => ht d (by simp [hd])⟩

/-- A literal matches itself and nothing else. -/
theorem mem_lang_lit {s : String} : t ∈ lang (lit s) ↔ t = text s := by
  unfold lit
  generalize text s = cs
  induction cs generalizing t with
  | nil => exact mem_lang_eps
  | cons c cs ih =>
    constructor
    · intro ht
      obtain ⟨u, ⟨d, hd, rfl⟩, v, hv, rfl⟩ := mem_lang_seq.mp ht
      rw [ih.mp hv, eq_of_beq hd]
      rfl
    · rintro rfl
      exact mem_lang_seq.mpr ⟨[c], ⟨c, by simp, rfl⟩, cs, ih.mpr rfl, rfl⟩

/-! ## Completeness -/

/-- The patterns whose matches are given by their language alone. -/
def Plain : Pattern → Prop
  | eps | cls _ => True
  | seq a b | alt a b => Plain a ∧ Plain b
  | star a | group _ a => Plain a
  | atomic _ | look _ | bol | eol => False

/-- The repetition finds every sequence of non-empty rounds, given enough of them. -/
theorem exists_mem_iter {f : Nat → Text → List Match} {L : Language Byte}
    (hf : ∀ t ∈ L, ∀ n rest, ∃ m ∈ f n (t ++ rest), m.text = t ∧ m.rest = rest) :
    ∀ (pieces : List Text), (∀ t ∈ pieces, t ∈ L) → (∀ t ∈ pieces, t ≠ []) →
      ∀ (k n : Nat) (rest : Text), pieces.flatten.length ≤ k →
        ∃ m ∈ iter f k n (pieces.flatten ++ rest), m.text = pieces.flatten ∧ m.rest = rest := by
  intro pieces
  induction pieces with
  | nil =>
    intro _ _ k n rest _
    refine ⟨⟨[], rest, []⟩, ?_, rfl, rfl⟩
    cases k <;> simp [iter]
  | cons t pieces ih =>
    intro hL hne k n rest hk
    have htne : t ≠ [] := hne t (by simp)
    have htpos : 0 < t.length := length_pos_of_ne_nil htne
    rw [flatten_cons, length_append] at hk
    obtain ⟨k, rfl⟩ : ∃ j, k = j + 1 := ⟨k - 1, by omega⟩
    obtain ⟨m₁, hm₁, htext₁, hrest₁⟩ := hf t (hL t (by simp)) n (pieces.flatten ++ rest)
    obtain ⟨m₂, hm₂, htext₂, hrest₂⟩ := ih (fun u hu => hL u (by simp [hu]))
      (fun u hu => hne u (by simp [hu])) k (n + m₁.text.length) rest (by omega)
    refine ⟨m₁.append m₂, ?_, ?_, hrest₂⟩
    · rw [flatten_cons, append_assoc, iter]
      refine mem_append_left _ (mem_flatMap.mpr ⟨m₁, hm₁, ?_⟩)
      rw [if_neg (by rw [htext₁]; exact htne), hrest₁]
      exact mem_map_of_mem hm₂
    · rw [Match.append_text, htext₁, htext₂, flatten_cons]

/-- A plain pattern finds every word of its language. -/
theorem exists_mem_run (hp : Plain p) : ∀ t ∈ lang p, ∀ (n : Nat) (rest : Text),
    ∃ m ∈ run p n (t ++ rest), m.text = t ∧ m.rest = rest := by
  induction p with
  | eps =>
    intro t ht n rest
    rw [mem_lang_eps] at ht
    subst ht
    exact ⟨_, mem_run_eps.mpr rfl, rfl, rfl⟩
  | cls q =>
    rintro t ⟨c, hc, rfl⟩ n rest
    exact ⟨_, mem_run_cls.mpr ⟨c, rest, rfl, hc, rfl⟩, rfl, rfl⟩
  | seq a b iha ihb =>
    intro t ht n rest
    obtain ⟨u, hu, v, hv, rfl⟩ := mem_lang_seq.mp ht
    obtain ⟨m₁, hm₁, htext₁, hrest₁⟩ := iha hp.1 u hu n (v ++ rest)
    obtain ⟨m₂, hm₂, htext₂, hrest₂⟩ := ihb hp.2 v hv (n + m₁.text.length) rest
    refine ⟨m₁.append m₂, mem_run_seq.mpr ⟨m₁, ?_, m₂, ?_, rfl⟩, ?_, hrest₂⟩
    · rwa [append_assoc]
    · rwa [hrest₁]
    · rw [Match.append_text, htext₁, htext₂]
  | alt a b iha ihb =>
    rintro t (ht | ht) n rest
    · obtain ⟨m, hm, hmt⟩ := iha hp.1 t ht n rest
      exact ⟨m, mem_append_left _ hm, hmt⟩
    · obtain ⟨m, hm, hmt⟩ := ihb hp.2 t ht n rest
      exact ⟨m, mem_append_right _ hm, hmt⟩
  | star a iha =>
    intro t ht n rest
    obtain ⟨pieces, rfl, hpieces⟩ := (Language.mem_kstar_iff_exists_nonempty).mp ht
    exact exists_mem_iter (fun u hu n rest => iha hp u hu n rest) pieces
      (fun u hu => (hpieces u hu).1) (fun u hu => (hpieces u hu).2) _ n rest (by simp)
  | group k a iha =>
    intro t ht n rest
    obtain ⟨m, hm, htext, hrest⟩ := iha hp t ht n rest
    exact ⟨_, mem_run_group.mpr ⟨m, hm, rfl⟩, htext, hrest⟩
  | atomic a => exact absurd hp id
  | look a => exact absurd hp id
  | bol => exact absurd hp id
  | eol => exact absurd hp id

/-! ## The first match -/

/-- The candidates of the first part that do not go on are passed over. -/
theorem head?_run_seq_skip {m₁ m₂ : Match}
    {skipped others : List Match} (hrun : run a n s = skipped ++ m₁ :: others)
    (hskip : ∀ m ∈ skipped, run b (n + m.text.length) m.rest = [])
    (h₂ : (run b (n + m₁.text.length) m₁.rest).head? = some m₂) :
    (run (seq a b) n s).head? = some (m₁.append m₂) := by
  have hnil : (skipped.flatMap fun m => (run b (n + m.text.length) m.rest).map m.append) = [] := by
    rw [flatMap_eq_nil_iff]
    intro m hm
    rw [hskip m hm, map_nil]
  rw [run, hrun, flatMap_append, hnil, nil_append, flatMap_cons, head?_append,
    head?_map, h₂]
  rfl

theorem head?_run_seq {m₁ m₂ : Match}
    (h₁ : (run a n s).head? = some m₁) (h₂ : (run b (n + m₁.text.length) m₁.rest).head? = some m₂) :
    (run (seq a b) n s).head? = some (m₁.append m₂) := by
  obtain ⟨others, hothers⟩ := head?_eq_some_iff.mp h₁
  have hnone : ∀ m ∈ ([] : List Match), run b (n + m.text.length) m.rest = [] := by simp
  exact head?_run_seq_skip hothers hnone h₂

theorem run_seq_eq_nil (h : run a n s = []) : run (seq a b) n s = [] := by
  rw [run, h, flatMap_nil]

theorem run_seq_of_singleton (h : run a n s = [m]) :
    run (seq a b) n s = (run b (n + m.text.length) m.rest).map m.append := by
  rw [run, h, flatMap_cons, flatMap_nil, append_nil]

theorem head?_run_alt : (run (alt a b) n s).head? = (run a n s).head?.or (run b n s).head? := by
  rw [run, head?_append]

theorem head?_run_alt_left
    (h : (run a n s).head? = some m) : (run (alt a b) n s).head? = some m := by
  rw [head?_run_alt, h, Option.some_or]

theorem run_alt_right (h : run a n s = []) : run (alt a b) n s = run b n s := by
  rw [run, h, nil_append]

theorem head?_run_group (h : (run a n s).head? = some m) :
    (run (group k a) n s).head? = some ⟨m.text, m.rest, (k, m.text) :: m.caps⟩ := by
  rw [run, head?_map, h]
  rfl

theorem run_cls_cons {p : Byte → Bool} {c : Byte} {cs : Text} (hc : p c = true) :
    run (cls p) n (c :: cs) = [⟨[c], cs, []⟩] := by
  simp [run, hc]

theorem run_cls_eq_nil {p : Byte → Bool} (hs : ∀ c ∈ s.head?, p c = false) :
    run (cls p) n s = [] := by
  cases s with
  | nil => rfl
  | cons c cs => simp [run, hs c (by simp)]

/-- An alternative in front of a sequence. -/
theorem run_seq_alt (a b c : Pattern) (n : Nat) (s : Text) :
    run (seq (alt a b) c) n s = run (seq a c) n s ++ run (seq b c) n s := by
  rw [run, run, run, run, flatMap_append]

theorem run_seq_choice (ps : List Pattern) (c : Pattern) (n : Nat) (s : Text) :
    run (seq (choice ps) c) n s = ps.flatMap fun p => run (seq p c) n s := by
  induction ps with
  | nil =>
    refine run_seq_eq_nil (run_cls_eq_nil ?_)
    intro d _
    rfl
  | cons p ps ih =>
    cases ps with
    | nil => rw [flatMap_singleton, choice]
    | cons q qs =>
      have hchoice : choice (p :: q :: qs) = alt p (choice (q :: qs)) := rfl
      rw [hchoice, run_seq_alt, ih]
      rfl

/-- More rounds than bytes are of no use to a repetition. -/
theorem iter_eq_of_length_le {f : Nat → Text → List Match}
    (hf : ∀ n s m, m ∈ f n s → s = m.text ++ m.rest) :
    ∀ (k k' : Nat) (s : Text) (n : Nat), s.length ≤ k → s.length ≤ k' →
      iter f k n s = iter f k' n s := by
  -- a round at the end of the text is empty
  have hend : ∀ (k n : Nat), iter f k n [] = [⟨[], [], []⟩] := by
    intro k n
    cases k with
    | zero => rfl
    | succ k =>
      rw [iter, append_left_eq_self, flatMap_eq_nil_iff]
      intro m hm
      rw [if_pos (append_eq_nil_iff.mp (hf n [] m hm).symm).1]
  intro k
  induction k with
  | zero =>
    intro k' s n hk _
    rw [eq_nil_of_length_eq_zero (Nat.le_zero.mp hk), hend, hend]
  | succ k ih =>
    intro k' s n hk hk'
    cases k' with
    | zero => rw [eq_nil_of_length_eq_zero (Nat.le_zero.mp hk'), hend, hend]
    | succ k' =>
      rw [iter, iter]
      congr 1
      refine flatMap_congr fun m hm => ?_
      by_cases hm' : m.text = []
      · rw [if_pos hm', if_pos hm']
      · have hlen := congrArg length (hf n s m hm)
        have hpos := length_pos_of_ne_nil hm'
        rw [length_append] at hlen
        rw [if_neg hm', if_neg hm', ih k' m.rest _ (by omega) (by omega)]

/-- A repetition is one round and more of it, or nothing. -/
theorem run_star (a : Pattern) (n : Nat) (s : Text) :
    run (star a) n s =
      (run a n s).flatMap (fun m =>
        if m.text = [] then []
        else (run (star a) (n + m.text.length) m.rest).map m.append) ++ [⟨[], s, []⟩] := by
  have hf : ∀ n s m, m ∈ run a n s → s = m.text ++ m.rest := fun _ _ _ h => append_of_mem_run h
  have hfuel : run (star a) n s = iter (run a) (s.length + 1) n s :=
    iter_eq_of_length_le hf _ _ _ _ le_rfl (Nat.le_succ _)
  rw [hfuel, iter]
  congr 1
  refine flatMap_congr fun m hm => ?_
  have hlen := congrArg length (hf n s m hm)
  rw [length_append] at hlen
  rw [run, iter_eq_of_length_le hf s.length m.rest.length m.rest _ (by omega) le_rfl]

theorem run_star_seq (a b : Pattern) (n : Nat) (s : Text) :
    run (seq (star a) b) n s =
      (run a n s).flatMap (fun m =>
        if m.text = [] then []
        else (run (seq (star a) b) (n + m.text.length) m.rest).map m.append) ++ run b n s := by
  have hone : Match.append ⟨[], s, []⟩ = id := by
    funext m
    simp [Match.append]
  have hassoc : ∀ m m' : Match, Match.append m ∘ Match.append m' = Match.append (m.append m') := by
    intro m m'
    funext m''
    simp [Match.append]
  rw [run, run_star, flatMap_append, flatMap_assoc]
  congr 1
  · refine flatMap_congr fun m _ => ?_
    by_cases hm : m.text = []
    · rw [if_pos hm, if_pos hm, flatMap_nil]
    · rw [if_neg hm, if_neg hm, run, map_flatMap, flatMap_map]
      refine flatMap_congr fun m' _ => ?_
      rw [map_map, hassoc, Match.append_text, length_append, Match.append_rest,
        Nat.add_assoc]
  · simp [hone]

theorem head?_run_star {m' : Match} (h : (run a n s).head? = some m) (hne : m.text ≠ [])
    (h' : (run (star a) (n + m.text.length) m.rest).head? = some m') :
    (run (star a) n s).head? = some (m.append m') := by
  obtain ⟨others, hothers⟩ := head?_eq_some_iff.mp h
  rw [run_star, hothers, flatMap_cons, if_neg hne, append_assoc, head?_append,
    head?_map, h']
  rfl

theorem run_star_eq_nil (h : run a n s = []) : run (star a) n s = [⟨[], s, []⟩] := by
  rw [run_star, h, flatMap_nil, nil_append]

/-- A repetition that can take piece after piece takes them all. -/
theorem head?_run_star_of_pieces {P : Text → Prop}
    (hend : ∀ n, run a n tail = []) (hpiece : ∀ s, s ≠ [] → P s → ∃ w t, s = w ++ t ∧ w ≠ [] ∧ P t ∧
      ∀ n, (run a n (s ++ tail)).head? = some ⟨w, t ++ tail, []⟩) (hs : P s) (n : Nat) :
    (run (star a) n (s ++ tail)).head? = some ⟨s, tail, []⟩ := by
  have hall : ∀ (k : Nat) (s : Text), s.length ≤ k → P s → ∀ n,
      (run (star a) n (s ++ tail)).head? = some ⟨s, tail, []⟩ := by
    intro k
    induction k with
    | zero =>
      intro s hk _ n
      rw [eq_nil_of_length_eq_zero (Nat.le_zero.mp hk), nil_append,
        run_star_eq_nil (hend n)]
      rfl
    | succ k ih =>
      intro s hk hs n
      by_cases hne : s = []
      · rw [hne, nil_append, run_star_eq_nil (hend n)]
        rfl
      · obtain ⟨w, t, rfl, hw, ht, hfirst⟩ := hpiece s hne hs
        have hpos := length_pos_of_ne_nil hw
        rw [length_append] at hk
        have h := head?_run_star (hfirst n) hw (ih t (by omega) ht _)
        simpa [Match.append] using h
  exact hall s.length s le_rfl hs n

/-- A repeated class takes what it can. -/
theorem head?_run_star_cls {p : Byte → Bool} (hw : ∀ c ∈ w, p c = true)
    (htail : ∀ c ∈ tail.head?, p c = false) :
    ∀ n, (run (star (cls p)) n (w ++ tail)).head? = some ⟨w, tail, []⟩ := by
  induction w with
  | nil =>
    intro n
    rw [nil_append, run_star_eq_nil (run_cls_eq_nil htail)]
    rfl
  | cons c w ih =>
    intro n
    have hfirst : (run (cls p) n (c :: (w ++ tail))).head? = some ⟨[c], w ++ tail, []⟩ := by
      rw [run_cls_cons (hw c (by simp))]
      rfl
    exact head?_run_star hfirst (by simp) (ih (fun d hd => hw d (by simp [hd])) _)

theorem run_star_cls_concat {p : Byte → Bool} {d : Byte}
    (hw : ∀ c ∈ w, p c = true) (hd : p d = true) (htail : ∀ c ∈ tail.head?, p c = false) :
    ∀ n, ∃ others, run (star (cls p)) n (w ++ d :: tail) =
      [⟨w ++ [d], tail, []⟩] ++ ⟨w, d :: tail, []⟩ :: others := by
  induction w with
  | nil =>
    intro n
    refine ⟨[], ?_⟩
    rw [nil_append, run_star, run_cls_cons hd, flatMap_cons,
      run_star_eq_nil (run_cls_eq_nil htail)]
    rfl
  | cons c w ih =>
    intro n
    obtain ⟨others, hothers⟩ := ih (fun d hd => hw d (by simp [hd])) (n + 1)
    refine ⟨others.map (Match.append ⟨[c], w ++ d :: tail, []⟩) ++ [⟨[], c :: (w ++ d :: tail), []⟩], ?_⟩
    rw [cons_append, run_star, run_cls_cons (hw c (by simp)), flatMap_cons,
      flatMap_nil, append_nil, if_neg (by simp)]
    simp [hothers, Match.append]

theorem head?_run_plus_cls {p : Byte → Bool} (hne : w ≠ [])
    (hw : ∀ c ∈ w, p c = true) (htail : ∀ c ∈ tail.head?, p c = false) (n : Nat) :
    (run (plus (cls p)) n (w ++ tail)).head? = some ⟨w, tail, []⟩ := by
  obtain ⟨c, w, rfl⟩ := exists_cons_of_ne_nil hne
  have hfirst : (run (cls p) n (c :: (w ++ tail))).head? = some ⟨[c], w ++ tail, []⟩ := by
    rw [run_cls_cons (hw c (by simp))]
    rfl
  exact head?_run_seq hfirst (head?_run_star_cls (fun d hd => hw d (by simp [hd])) htail _)

/-- `[p]++` takes the whole run. -/
theorem run_possessive {p : Byte → Bool} (hne : w ≠ [])
    (hw : ∀ c ∈ w, p c = true) (htail : ∀ c ∈ tail.head?, p c = false) (n : Nat) :
    run (possessive p) n (w ++ tail) = [⟨w, tail, []⟩] := by
  obtain ⟨others, hothers⟩ := head?_eq_some_iff.mp (head?_run_plus_cls hne hw htail n)
  rw [possessive, run, hothers, take_succ_cons, take_zero]

theorem run_possessive_eq_nil {p : Byte → Bool}
    (hs : ∀ c ∈ s.head?, p c = false) : run (possessive p) n s = [] := by
  rw [possessive, run, plus, run_seq_eq_nil (run_cls_eq_nil hs), take_nil]

theorem head?_run_times_cls {p : Byte → Bool} :
    ∀ {w : Text} {k : Nat}, (∀ c ∈ w, p c = true) → w.length = k → ∀ n,
      (run (times k (cls p)) n (w ++ tail)).head? = some ⟨w, tail, []⟩ := by
  intro w
  induction w with
  | nil =>
    rintro k - rfl n
    rfl
  | cons c w ih =>
    rintro k hw rfl n
    have hfirst : (run (cls p) n (c :: (w ++ tail))).head? = some ⟨[c], w ++ tail, []⟩ := by
      rw [run_cls_cons (hw c (by simp))]
      rfl
    exact head?_run_seq hfirst (ih (fun d hd => hw d (by simp [hd])) rfl _)

theorem head?_run_upTo_cls {p : Byte → Bool} (htail : ∀ c ∈ tail.head?, p c = false) :
    ∀ {w : Text} {k : Nat}, (∀ c ∈ w, p c = true) → w.length ≤ k → ∀ n,
      (run (upTo k (cls p)) n (w ++ tail)).head? = some ⟨w, tail, []⟩ := by
  intro w
  induction w with
  | nil =>
    intro k _ _ n
    cases k with
    | zero => rfl
    | succ k =>
      rw [upTo, opt, head?_run_alt, nil_append,
        run_seq_eq_nil (run_cls_eq_nil htail)]
      rfl
  | cons c w ih =>
    intro k hw hk n
    obtain ⟨k, rfl⟩ : ∃ j, k = j + 1 := ⟨k - 1, by rw [length_cons] at hk; omega⟩
    have hfirst : (run (cls p) n (c :: (w ++ tail))).head? = some ⟨[c], w ++ tail, []⟩ := by
      rw [run_cls_cons (hw c (by simp))]
      rfl
    have hrest := ih (fun d hd => hw d (by simp [hd]))
      (Nat.le_of_succ_le_succ hk) (n + 1)
    rw [upTo, opt, head?_run_alt, cons_append, head?_run_seq hfirst hrest]
    rfl

end Pattern

end SipXRouter
