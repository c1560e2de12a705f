import SipXRouter.Proxy.RouteState
import Mathlib.Data.List.Infix

/-!
# Route state tokens

Which tokens `RouteState::decode` accepts, and what an accepted token says about the
calls of `RouteState::encode` that were made.
-/

namespace SipXRouter

open List Pattern

variable {md5 : NetMd5Codec} {name s secret stateToken t tail : Text} {p : Text × Text}
  {ps : List (Text × Text)}

namespace RouteState

/-! ## The syntax of tokens -/

/-- One pair of a token. -/
def pairText (p : Text × Text) : Text := p.1 ++ byte '~' :: p.2

/-- Pairs with dots between them. -/
def joinPairs : List (Text × Text) → Text
  | [] => []
  | [p] => pairText p
  | p :: ps => pairText p ++ byte '.' :: joinPairs ps

/-- What the expressions ask of a pair. -/
structure IsPair (p : Text × Text) : Prop where
  name_length : 2 ≤ p.1.length
  name_bytes : ∀ c ∈ p.1, isNameByte c = true
  value_bytes : ∀ c ∈ p.2, isValueByte c = true

/-- What `decode` asks of a name. -/
def ValidName (name : Text) : Prop :=
  2 ≤ name.length ∧ (∀ c ∈ name, isNameByte c = true) ∧ name.count (byte '*') = 1

instance (name : Text) : Decidable (ValidName name) := inferInstanceAs (Decidable (_ ∧ _ ∧ _))

/-- What `decode` asks of a pair. -/
def ValidPair (p : Text × Text) : Prop :=
  ValidName p.1 ∧ (∀ c ∈ p.2, isValueByte c = true) ∧ (decodeValue p.2).isSome = true

instance (p : Text × Text) : Decidable (ValidPair p) := inferInstanceAs (Decidable (_ ∧ _ ∧ _))

theorem ValidPair.isPair (hp : ValidPair p) : IsPair p :=
  ⟨hp.1.1, hp.1.2.1, hp.2.1⟩

theorem joinPairs_cons (p : Text × Text) (hps : ps ≠ []) :
    joinPairs (p :: ps) = pairText p ++ byte '.' :: joinPairs ps := by
  cases ps with
  | nil => exact absurd rfl hps
  | cons q qs => rfl

/-- The loop of `encode` writes the pairs with dots between them. -/
theorem encodePairs_true (values : List (Text × Text)) :
    encodePairs true values = joinPairs (values.map fun nv => (nv.1, encodeValue nv.2)) := by
  induction values with
  | nil => rfl
  | cons nv rest ih =>
    cases rest with
    | nil => simp [encodePairs, joinPairs, pairText]
    | cons nv' rest =>
      have htail : encodePairs false (nv' :: rest) =
          byte '.' :: encodePairs true (nv' :: rest) := by
        simp [encodePairs]
      have hjoin := joinPairs_cons (nv.1, encodeValue nv.2)
        (by simp : (nv' :: rest).map (fun nv => (nv.1, encodeValue nv.2)) ≠ [])
      rw [encodePairs, htail, ih, map_cons (l := nv' :: rest), hjoin]
      simp [pairText]

theorem mem_lang_namePattern :
    t ∈ lang namePattern ↔ 2 ≤ t.length ∧ ∀ c ∈ t, isNameByte c = true := by
  rw [namePattern, mem_lang_seq]
  constructor
  · rintro ⟨u, hu, v, hv, rfl⟩
    obtain ⟨hlen, hu⟩ := mem_lang_times_cls.mp hu
    rw [mem_lang_star_cls] at hv
    refine ⟨by simp [hlen], ?_⟩
    intro c hc
    rcases mem_append.mp hc with hc | hc
    · exact hu c hc
    · exact hv c hc
  · rintro ⟨hlen, ht⟩
    refine ⟨t.take 2, mem_lang_times_cls.mpr ⟨by simpa using hlen, ?_⟩, t.drop 2,
      mem_lang_star_cls.mpr ?_, take_append_drop 2 t⟩
    · exact fun c hc => ht c (mem_of_mem_take hc)
    · exact fun c hc => ht c (mem_of_mem_drop hc)

theorem mem_lang_pairPattern : t ∈ lang pairPattern ↔ ∃ p, IsPair p ∧ t = pairText p := by
  constructor
  · intro ht
    obtain ⟨n, hn, t₁, ht₁, rfl⟩ := mem_lang_seq.mp ht
    obtain ⟨sep, hsep, t₂, ht₂, rfl⟩ := mem_lang_seq.mp ht₁
    obtain ⟨v, hv, e, he, rfl⟩ := mem_lang_seq.mp ht₂
    obtain ⟨hlen, hbytes⟩ := mem_lang_namePattern.mp hn
    rw [mem_lang_lit] at hsep
    rw [mem_lang_eps.mp he, hsep, append_nil]
    exact ⟨(n, v), ⟨hlen, hbytes, mem_lang_star_cls.mp hv⟩, rfl⟩
  · rintro ⟨⟨n, v⟩, ⟨hlen, hbytes, hvalue⟩, rfl⟩
    refine mem_lang_seq.mpr ⟨n, mem_lang_namePattern.mpr ⟨hlen, hbytes⟩, byte '~' :: v, ?_, rfl⟩
    refine mem_lang_seq.mpr ⟨text "~", mem_lang_lit.mpr rfl, v, ?_, rfl⟩
    exact mem_lang_seq.mpr ⟨v, mem_lang_star_cls.mpr hvalue, [], mem_lang_eps.mpr rfl, by simp⟩

theorem pairText_append_flatten (p : Text × Text) (ps : List (Text × Text)) :
    pairText p ++ (ps.map fun q => byte '.' :: pairText q).flatten = joinPairs (p :: ps) := by
  induction ps generalizing p with
  | nil => simp [joinPairs]
  | cons q qs ih =>
    rw [joinPairs_cons p (by simp), ← ih q]
    simp

/-- The texts of `StateAndSignature`'s first group are the joined pairs. -/
theorem mem_lang_pairsPattern :
    t ∈ lang pairsPattern ↔ ∃ ps, ps ≠ [] ∧ (∀ p ∈ ps, IsPair p) ∧ t = joinPairs ps := by
  constructor
  · intro ht
    obtain ⟨u, hu, v, hv, rfl⟩ := mem_lang_seq.mp ht
    obtain ⟨p, hp, rfl⟩ := mem_lang_pairPattern.mp hu
    obtain ⟨pieces, rfl, hpieces⟩ := Language.mem_kstar.mp hv
    have hdotted : ∃ ps : List (Text × Text), (∀ q ∈ ps, IsPair q) ∧
        pieces = ps.map fun q => byte '.' :: pairText q := by
      clear hv ht
      induction pieces with
      | nil => exact ⟨[], by simp, rfl⟩
      | cons piece pieces ih =>
        obtain ⟨qs, hqs, rfl⟩ := ih fun y hy => hpieces y (by simp [hy])
        obtain ⟨sep, hsep, w, hw, hpiece⟩ := mem_lang_seq.mp (hpieces piece (by simp))
        obtain ⟨q, hq, rfl⟩ := mem_lang_pairPattern.mp hw
        rw [mem_lang_lit.mp hsep] at hpiece
        refine ⟨q :: qs, ?_, by rw [← hpiece]; rfl⟩
        exact forall_mem_cons.mpr ⟨hq, hqs⟩
    obtain ⟨ps, hps, rfl⟩ := hdotted
    exact ⟨p :: ps, by simp, forall_mem_cons.mpr ⟨hp, hps⟩, pairText_append_flatten p ps⟩
  · rintro ⟨ps, hne, hps, rfl⟩
    obtain ⟨p, ps, rfl⟩ := exists_cons_of_ne_nil hne
    refine mem_lang_seq.mpr ⟨pairText p, mem_lang_pairPattern.mpr ⟨p, hps p (by simp), rfl⟩,
      _, ?_, pairText_append_flatten p ps⟩
    refine Language.mem_kstar.mpr ⟨_, rfl, ?_⟩
    intro y hy
    obtain ⟨q, hq, rfl⟩ := mem_map.mp hy
    exact mem_lang_seq.mpr ⟨text ".", mem_lang_lit.mpr rfl, pairText q,
      mem_lang_pairPattern.mpr ⟨q, hps q (by simp [hq]), rfl⟩, rfl⟩

/-! ## What the expressions find -/

theorem isNameByte_tilde : isNameByte (byte '~') = false := by decide

/-- The name and the value that `NameValue` finds in front of a separator. -/
theorem groups_nameValue (hp : IsPair p) {sep : Byte}
    (hsep : oneOf ".!" sep = true) {n : Nat} {rest : Text} :
    ∀ m ∈ run nameValue n (pairText p ++ sep :: rest),
      m.group 1 = some p.1 ∧ m.group 2 = some p.2 ∧ m.rest = rest := by
  intro m hm
  obtain ⟨_, hg₁, t₁, htail₁, rfl⟩ := mem_run_seq.mp hm
  obtain ⟨m₁, hm₁, rfl⟩ := mem_run_group.mp hg₁
  obtain ⟨ml, hml, t₂, htail₂, rfl⟩ := mem_run_seq.mp htail₁
  obtain ⟨_, hg₂, t₃, htail₃, rfl⟩ := mem_run_seq.mp htail₂
  obtain ⟨m₂, hm₂, rfl⟩ := mem_run_group.mp hg₂
  obtain ⟨_, hcls, t₄, heps, rfl⟩ := mem_run_seq.mp htail₃
  obtain ⟨d, ds, hrest₂, hd, rfl⟩ := mem_run_cls.mp hcls
  obtain rfl := mem_run_eps.mp heps
  have htilde : ml.text = [byte '~'] := mem_lang_lit.mp (text_mem_lang hml)
  have hname := (mem_lang_namePattern.mp (text_mem_lang hm₁)).2
  have hvalue := mem_lang_star_cls.mp (text_mem_lang hm₂)
  have h₁ : pairText p ++ sep :: rest = m₁.text ++ m₁.rest := append_of_mem_run hm₁
  have h₂ : m₁.rest = ml.text ++ ml.rest := append_of_mem_run hml
  have h₃ : ml.rest = m₂.text ++ m₂.rest := append_of_mem_run hm₂
  replace hrest₂ : m₂.rest = d :: ds := hrest₂
  have hsplit : p.1 ++ byte '~' :: (p.2 ++ sep :: rest) =
      m₁.text ++ byte '~' :: (m₂.text ++ d :: ds) := by
    rw [h₂, h₃, htilde, hrest₂] at h₁
    simpa [pairText] using h₁
  -- the name ends at the first byte outside its class, and so does the value
  obtain ⟨hn, hv⟩ := append_inj_of_class hp.name_bytes hname (by simp [isNameByte_tilde])
    (by simp [isNameByte_tilde]) hsplit
  have hsepv : ∀ c, oneOf ".!" c = true → isValueByte c = false := by
    intro c hc
    have : c = byte '.' ∨ c = byte '!' := by simpa [oneOf, text] using hc
    rcases this with rfl | rfl <;> decide
  obtain ⟨hv, hrest⟩ := append_inj_of_class hp.value_bytes hvalue (by simp [hsepv sep hsep])
    (by simp [hsepv d hd]) (List.cons.inj hv).2
  have hcaps₁ : m₁.caps = [] := caps_eq_nil rfl hm₁
  have hcapsl : ml.caps = [] := caps_eq_nil rfl hml
  have hcaps₂ : m₂.caps = [] := caps_eq_nil rfl hm₂
  rw [hn, hv, (List.cons.inj hrest).2]
  simp [Match.group, Match.append, lookup_cons, hcaps₁, hcapsl, hcaps₂]

theorem exists_mem_nameValue (hp : IsPair p) {sep : Byte}
    (hsep : oneOf ".!" sep = true) (n : Nat) (rest : Text) :
    ∃ m, m ∈ run nameValue n (pairText p ++ sep :: rest) := by
  have hplain : Plain nameValue := by
    simp [nameValue, cat, namePattern, valuePattern, times, lit, text, Plain]
  have hmem : pairText p ++ [sep] ∈ lang nameValue := by
    refine mem_lang_seq.mpr ⟨p.1, mem_lang_namePattern.mpr ⟨hp.name_length, hp.name_bytes⟩,
      byte '~' :: (p.2 ++ [sep]), ?_, by simp [pairText]⟩
    refine mem_lang_seq.mpr ⟨text "~", mem_lang_lit.mpr rfl, p.2 ++ [sep], ?_, rfl⟩
    refine mem_lang_seq.mpr ⟨p.2, mem_lang_star_cls.mpr hp.value_bytes, [sep], ?_, rfl⟩
    exact mem_lang_seq.mpr ⟨[sep], ⟨sep, hsep, rfl⟩, [], mem_lang_eps.mpr rfl, rfl⟩
  obtain ⟨m, hm, -⟩ := exists_mem_run hplain _ hmem n rest
  exact ⟨m, by simpa using hm⟩

theorem joinPairs_cons_append (p : Text × Text) (ps : List (Text × Text)) (tail : Text) :
    ∃ sep rest, oneOf ".!" sep = true ∧
      joinPairs (p :: ps) ++ byte '!' :: tail = pairText p ++ sep :: rest ∧
      rest = if ps = [] then tail else joinPairs ps ++ byte '!' :: tail := by
  by_cases hnil : ps = []
  · exact ⟨byte '!', tail, rfl, by rw [hnil]; rfl, by simp [hnil]⟩
  · exact ⟨byte '.', joinPairs ps ++ byte '!' :: tail, rfl,
      by rw [joinPairs_cons p hnil]; simp, by simp [hnil]⟩

/-- What `NameValue` finds in front of joined pairs. -/
theorem matchAt_joinPairs (hp : IsPair p) (ps : List (Text × Text))
    (tail : Text) : ∃ m, matchAt nameValue (joinPairs (p :: ps) ++ byte '!' :: tail) = some m ∧
      m.group 1 = some p.1 ∧ m.group 2 = some p.2 ∧
      m.rest = if ps = [] then tail else joinPairs ps ++ byte '!' :: tail := by
  obtain ⟨sep, rest, hsep, htext, hrest⟩ := joinPairs_cons_append p ps tail
  rw [htext, ← hrest]
  exact exists_matchAt (exists_mem_nameValue hp hsep 0 rest) (groups_nameValue hp hsep)

/-- The parts that `StateAndSignature` captures. -/
theorem groups_stateAndSignature : ∀ m ∈ run stateAndSignature 0 s,
    ∃ ps sig tail, ps ≠ [] ∧ (∀ p ∈ ps, IsPair p) ∧ sig.length = 32 ∧
      s = joinPairs ps ++ byte '!' :: (sig ++ tail) ∧
      m.group 1 = some (joinPairs ps) ∧ m.group 2 = some sig := by
  intro m hm
  obtain ⟨_, hbol, t₁, htail₁, rfl⟩ := mem_run_seq.mp hm
  obtain ⟨-, rfl⟩ := mem_run_bol.mp hbol
  obtain ⟨_, hg₁, t₂, htail₂, rfl⟩ := mem_run_seq.mp htail₁
  obtain ⟨m₁, hm₁, rfl⟩ := mem_run_group.mp hg₁
  obtain ⟨ml, hml, t₃, htail₃, rfl⟩ := mem_run_seq.mp htail₂
  obtain ⟨_, hg₂, t₄, htail₄, rfl⟩ := mem_run_seq.mp htail₃
  obtain ⟨m₂, hm₂, rfl⟩ := mem_run_group.mp hg₂
  obtain ⟨_, heol, t₅, heps, rfl⟩ := mem_run_seq.mp htail₄
  obtain ⟨-, rfl⟩ := mem_run_eol.mp heol
  obtain rfl := mem_run_eps.mp heps
  obtain ⟨ps, hne, hps, hjoin⟩ := mem_lang_pairsPattern.mp (text_mem_lang hm₁)
  obtain ⟨hlen, -⟩ := mem_lang_times_cls.mp (text_mem_lang hm₂)
  have hbang : ml.text = [byte '!'] := mem_lang_lit.mp (text_mem_lang hml)
  have h₁ : s = m₁.text ++ m₁.rest := append_of_mem_run hm₁
  have h₂ : m₁.rest = ml.text ++ ml.rest := append_of_mem_run hml
  have h₃ : ml.rest = m₂.text ++ m₂.rest := append_of_mem_run hm₂
  have hcaps₁ : m₁.caps = [] := caps_eq_nil rfl hm₁
  have hcapsl : ml.caps = [] := caps_eq_nil rfl hml
  have hcaps₂ : m₂.caps = [] := caps_eq_nil rfl hm₂
  refine ⟨ps, m₂.text, m₂.rest, hne, hps, hlen, ?_, ?_, ?_⟩
  · rw [h₁, h₂, h₃, hbang, hjoin]
    rfl
  · simp [Match.group, Match.append, lookup_cons, hcaps₁, hcapsl, hcaps₂, hjoin]
  · simp [Match.group, Match.append, hcaps₁, hcapsl, hcaps₂]

theorem exists_mem_stateAndSignature (hne : ps ≠ [])
    (hps : ∀ p ∈ ps, IsPair p) {sig : Text} (hlen : sig.length = 32)
    (hsig : ∀ c ∈ sig, isHex c = true) :
    ∃ m, m ∈ run stateAndSignature 0 (joinPairs ps ++ byte '!' :: sig) := by
  have hplain₁ : Plain pairsPattern := by
    simp [pairsPattern, pairPattern, cat, namePattern, valuePattern, times, lit, text, Plain]
  have hplain₂ : Plain (lit "!") := by simp [lit, text, Plain]
  have hplain₃ : Plain (times 32 (cls isHex)) := by simp [times, Plain]
  obtain ⟨m₁, hm₁, -, hrest₁⟩ := exists_mem_run hplain₁ (joinPairs ps)
    (mem_lang_pairsPattern.mpr ⟨ps, hne, hps, rfl⟩) 0 (byte '!' :: sig)
  obtain ⟨ml, hml, -, hrestl⟩ := exists_mem_run hplain₂ (text "!")
    (mem_lang_lit.mpr rfl) (0 + m₁.text.length) sig
  obtain ⟨m₂, hm₂, -, hrest₂⟩ := exists_mem_run hplain₃ sig
    (mem_lang_times_cls.mpr ⟨hlen, hsig⟩) (0 + m₁.text.length + ml.text.length) []
  rw [append_nil] at hm₂
  refine ⟨_, mem_run_seq.mpr ⟨_, mem_run_bol.mpr ⟨rfl, rfl⟩, _, mem_run_seq.mpr
    ⟨_, mem_run_group.mpr ⟨m₁, hm₁, rfl⟩, _, mem_run_seq.mpr ⟨ml, ?_, _, mem_run_seq.mpr
      ⟨_, mem_run_group.mpr ⟨m₂, ?_, rfl⟩, _, mem_run_seq.mpr
        ⟨_, mem_run_eol.mpr ⟨Or.inl hrest₂, rfl⟩, _, mem_run_eps.mpr rfl, rfl⟩, rfl⟩, rfl⟩,
      rfl⟩, rfl⟩⟩
  · rw [hrest₁]
    exact hml
  · rw [hrestl]
    exact hm₂

/-! ## The tokens that are accepted -/

/-- The part of a token in front of the mark. -/
def carriedPairs (stateToken : Text) : Text := (cString stateToken).takeWhile (· != byte '!')

/-- The part of a token behind the mark. -/
def carriedSignature (stateToken : Text) : Text :=
  (((cString stateToken).dropWhile (· != byte '!')).drop 1).take 32

theorem bytes_joinPairs (hps : ∀ p ∈ ps, IsPair p) :
    ∀ c ∈ joinPairs ps, (isNameByte c || isValueByte c || oneOf "~." c) = true := by
  have hpair : ∀ p, IsPair p →
      ∀ c ∈ pairText p, (isNameByte c || isValueByte c || oneOf "~." c) = true := by
    intro p hp c hc
    simp only [pairText, mem_append, mem_cons] at hc
    rcases hc with hc | rfl | hc
    · simp [hp.name_bytes c hc]
    · decide
    · simp [hp.value_bytes c hc]
  induction ps with
  | nil => simp [joinPairs]
  | cons p ps ih =>
    cases ps with
    | nil => exact hpair p (hps p (by simp))
    | cons q qs =>
      intro c hc
      rw [joinPairs_cons p (by simp), mem_append, mem_cons] at hc
      rcases hc with hc | rfl | hc
      · exact hpair p (hps p (by simp)) c hc
      · decide
      · exact ih (fun r hr => hps r (by simp [hr])) c hc

theorem not_bang_joinPairs (hps : ∀ p ∈ ps, IsPair p) :
    ∀ c ∈ joinPairs ps, (c != byte '!' && c != 0) = true := by
  intro c hc
  have hbytes := bytes_joinPairs hps c hc
  by_contra hcon
  have : c = byte '!' ∨ c = 0 := by
    by_contra hne
    rw [not_or] at hne
    exact hcon (by simp [hne.1, hne.2])
  rcases this with rfl | rfl <;> revert hbytes <;> decide

theorem carried_of_cString {sig : Text} (hps : ∀ p ∈ ps, IsPair p) (hlen : sig.length = 32)
    (htoken : cString stateToken = joinPairs ps ++ byte '!' :: (sig ++ tail)) :
    carriedPairs stateToken = joinPairs ps ∧ carriedSignature stateToken = sig := by
  have hbang : ∀ c ∈ joinPairs ps, (c != byte '!') = true := by
    intro c hc
    exact (Bool.and_eq_true_iff.mp (not_bang_joinPairs hps c hc)).1
  constructor
  · rw [carriedPairs, htoken, takeWhile_append_of_pos hbang]
    simp
  · rw [carriedSignature, htoken, dropWhile_append_of_pos hbang]
    simp [← hlen]

theorem carriedPairs_append (hps : ∀ p ∈ ps, IsPair p) (tail : Text) :
    carriedPairs (joinPairs ps ++ byte '!' :: tail) = joinPairs ps := by
  have hbang : ∀ c ∈ joinPairs ps, (c != byte '!') = true := by
    intro c hc
    exact (Bool.and_eq_true_iff.mp (not_bang_joinPairs hps c hc)).1
  have hnul : ∀ c ∈ joinPairs ps, (c != 0) = true := by
    intro c hc
    exact (Bool.and_eq_true_iff.mp (not_bang_joinPairs hps c hc)).2
  rw [carriedPairs, cString, takeWhile_append_of_pos hnul,
    takeWhile_cons_of_pos (by decide), takeWhile_append_of_pos hbang,
    takeWhile_cons_of_neg (by decide), append_nil]

/-- Pairs that are decoded were valid. -/
theorem validPair_of_decodePairs : ∀ (ps : List (Text × Text)), (∀ p ∈ ps, IsPair p) →
    ∀ {fuel : Nat} {m : Match} {values result : List (Text × Text)},
      matchAt nameValue (joinPairs ps ++ byte '!' :: tail) = some m →
      decodePairs fuel m values = some result → ∀ p ∈ ps, ValidPair p := by
  intro ps
  induction ps with
  | nil => intro _ _ _ _ _ _ _ p hp; simp at hp
  | cons p ps ih =>
    intro hps fuel m values result hmatch hdecode
    obtain ⟨hp, hps⟩ := forall_mem_cons.mp hps
    obtain ⟨m', hm', h₁, h₂, h₃⟩ := matchAt_joinPairs hp ps tail
    obtain rfl : m' = m := Option.some.inj (hm'.symm.trans hmatch)
    cases fuel with
    | zero => simp [decodePairs] at hdecode
    | succ fuel =>
      simp only [decodePairs, h₁, h₂, Option.getD_some] at hdecode
      split at hdecode
      · next hstar =>
          cases hvalue : decodeValue p.2 with
          | none => simp [hvalue] at hdecode
          | some value =>
            have hvalid : ValidPair p :=
              ⟨⟨hp.name_length, hp.name_bytes, hstar⟩, hp.value_bytes, by simp [hvalue]⟩
            refine forall_mem_cons.mpr ⟨hvalid, ?_⟩
            cases ps with
            | nil => simp
            | cons q qs =>
              -- the search goes on at the front of the remaining pairs
              obtain ⟨m'', hm'', -⟩ := matchAt_joinPairs (hps q (by simp)) qs tail
              have hrest : m'.rest = joinPairs (q :: qs) ++ byte '!' :: tail := by
                simpa using h₃
              simp only [hvalue, hrest, search_of_matchAt hm''] at hdecode
              rw [if_neg (by simp)] at hdecode
              exact ih hps hm'' hdecode
      · simp at hdecode

/-- **Acceptance, soundness.**  A token that `decode` accepts carries well-formed
pairs and the signature of the Call-Id and these pairs. -/
theorem decodeToken_sound {callId : Text}
    {values : List (Text × Text)} (h : decodeToken md5 secret callId stateToken = some values) :
    ∃ ps, ps ≠ [] ∧ (∀ p ∈ ps, ValidPair p) ∧ carriedPairs stateToken = joinPairs ps ∧
      carriedSignature stateToken = md5.hash (secret ++ callId ++ joinPairs ps) := by
  obtain ⟨m, m', hsearch, hfirst, hvalid, hdecode⟩ := decodeToken_eq_some h
  have hmatch : matchAt stateAndSignature (cString stateToken) = some m :=
    (search_bol _ _).symm.trans hsearch
  obtain ⟨ps, sig, tail, hne, hps, hlen, htoken, h₁, h₂⟩ :=
    groups_stateAndSignature m (mem_run_of_matchAt hmatch)
  obtain ⟨hpairs, hsig⟩ := carried_of_cString hps hlen htoken
  rw [h₁, h₂, Option.getD_some, Option.getD_some] at hvalid
  have hcut : stateToken = joinPairs ps ++ byte '!' ::
      (sig ++ tail ++ stateToken.dropWhile (· != 0)) := by
    calc stateToken = cString stateToken ++ stateToken.dropWhile (· != 0) :=
          takeWhile_append_dropWhile.symm
      _ = _ := by rw [htoken, append_assoc, cons_append]
  rw [hcut] at hfirst
  exact ⟨ps, hne, validPair_of_decodePairs ps hps hfirst hdecode, hpairs, hsig.trans hvalid⟩

def insertPairs (ps : List (Text × Text)) (values : List (Text × Text)) : List (Text × Text) :=
  ps.foldl (fun values p => insertValue (p.1, cString ((decodeValue p.2).getD [])) values) values

theorem search_nameValue_eq_none (hs : byte '~' ∉ s) : search nameValue s = none := by
  rw [Option.eq_none_iff_forall_not_mem]
  intro m hm
  obtain ⟨before, k, heq, hrun⟩ := searchFrom_append (hm : searchFrom nameValue 0 s = some m)
  obtain ⟨n, -, t₁, ht₁, hn⟩ := mem_lang_seq.mp (text_mem_lang hrun)
  obtain ⟨sep, hsep, t₂, -, ht₂⟩ := mem_lang_seq.mp ht₁
  rw [mem_lang_lit] at hsep
  apply hs
  rw [heq, ← hn, ← ht₂, hsep]
  simp [text]

/-- Valid pairs are decoded as they were joined. -/
theorem decodePairs_joinPairs (htail : byte '~' ∉ tail) :
    ∀ (ps : List (Text × Text)), ps ≠ [] → (∀ p ∈ ps, ValidPair p) →
      ∀ {fuel : Nat} {m : Match} {values : List (Text × Text)}, ps.length ≤ fuel →
        matchAt nameValue (joinPairs ps ++ byte '!' :: tail) = some m →
        decodePairs fuel m values = some (insertPairs ps values) := by
  intro ps
  induction ps with
  | nil => intro h; exact absurd rfl h
  | cons p ps ih =>
    intro _ hps fuel m values hfuel hmatch
    obtain ⟨hp, hps⟩ := forall_mem_cons.mp hps
    obtain ⟨m', hm', h₁, h₂, h₃⟩ := matchAt_joinPairs hp.isPair ps tail
    obtain rfl : m' = m := Option.some.inj (hm'.symm.trans hmatch)
    obtain ⟨fuel, rfl⟩ : ∃ k, fuel = k + 1 := ⟨fuel - 1, by simp at hfuel; omega⟩
    obtain ⟨value, hvalue⟩ := Option.isSome_iff_exists.mp hp.2.2
    simp only [decodePairs, h₁, h₂, Option.getD_some, hp.1.2.2, if_true, hvalue]
    cases ps with
    | nil =>
      have hrest : m'.rest = tail := by simpa using h₃
      rw [hrest, search_nameValue_eq_none htail]
      simp [insertPairs, hvalue]
    | cons q qs =>
      obtain ⟨m'', hm'', -⟩ := matchAt_joinPairs (hps q (by simp)).isPair qs tail
      have hrest : m'.rest = joinPairs (q :: qs) ++ byte '!' :: tail := by simpa using h₃
      rw [hrest, if_neg (by simp), search_of_matchAt hm'']
      simp only
      rw [ih (by simp) hps (by simpa using hfuel) hm'']
      simp [insertPairs, hvalue]

theorem length_le_joinPairs : ∀ ps : List (Text × Text), ps.length ≤ (joinPairs ps).length := by
  intro ps
  induction ps with
  | nil => simp
  | cons p ps ih =>
    cases ps with
    | nil => simp [joinPairs, pairText]; omega
    | cons q qs =>
      rw [joinPairs_cons p (by simp)]
      simp only [length_cons, length_append] at ih ⊢
      omega

/-- **Acceptance, completeness.**  Well-formed pairs under their signature are
accepted and deliver the decoded values. -/
theorem decodeToken_complete (md5 : NetMd5Codec) (secret callId : Text) (hne : ps ≠ [])
    (hps : ∀ p ∈ ps, ValidPair p) :
    decodeToken md5 secret callId
        (joinPairs ps ++ byte '!' :: md5.hash (secret ++ callId ++ joinPairs ps)) =
      some (insertPairs ps []) := by
  have hpairs : ∀ p ∈ ps, IsPair p := fun p hp => (hps p hp).isPair
  generalize hsig : md5.hash (secret ++ callId ++ joinPairs ps) = sig
  have hlen : sig.length = 32 := by rw [← hsig]; exact md5.length_hash _
  have hhex : ∀ c ∈ sig, isHex c = true := by
    rw [← hsig]
    exact fun c hc => NetMd5Codec.isHex_of_isHexLower (md5.isHexLower_hash _ c hc)
  have hnul : cString (joinPairs ps ++ byte '!' :: sig) = joinPairs ps ++ byte '!' :: sig := by
    refine cString_eq_self ?_
    intro c hc
    rw [mem_append, mem_cons] at hc
    rcases hc with hc | rfl | hc
    · exact (Bool.and_eq_true_iff.mp (not_bang_joinPairs hpairs c hc)).2
    · decide
    · have hc := hhex c hc
      by_contra hcon
      have : c = 0 := by simpa using hcon
      rw [this] at hc
      revert hc
      decide
  obtain ⟨m, hm, ps', sig', tail, -, hps', hlen', htoken, h₁, h₂⟩ := exists_matchAt
    (exists_mem_stateAndSignature hne hpairs hlen hhex) groups_stateAndSignature
  -- the signature starts behind the only exclamation mark in front of it
  have hself : cString (joinPairs ps ++ byte '!' :: sig) =
      joinPairs ps ++ byte '!' :: (sig ++ []) := by
    rw [hnul, append_nil]
  obtain ⟨hpairs₁, hsig₁⟩ := carried_of_cString hpairs hlen hself
  obtain ⟨hpairs₂, hsig₂⟩ := carried_of_cString hps' hlen' (hnul.trans htoken)
  rw [← hpairs₂, hpairs₁] at h₁
  rw [← hsig₂, hsig₁] at h₂
  have htilde : byte '~' ∉ sig := by
    intro hc
    have hc := hhex _ hc
    revert hc
    decide
  obtain ⟨p, qs, rfl⟩ := exists_cons_of_ne_nil hne
  obtain ⟨m', hm', -⟩ := matchAt_joinPairs (hpairs p (by simp)) qs sig
  have hsearch : search stateAndSignature (joinPairs (p :: qs) ++ byte '!' :: sig) = some m :=
    search_of_matchAt hm
  simp only [decodeToken, hnul, hsearch, h₁, h₂, Option.getD_some, hsig, if_true, hm']
  refine decodePairs_joinPairs htilde _ hne hps ?_ hm'
  have := length_le_joinPairs (p :: qs)
  rw [length_append]
  omega

/-! ## What the encoder writes -/

/-- The bytes of an encoding: letters, digits, `+`, `/` and the pad. -/
theorem bytes_encode_mime (value : Text) : ∀ c ∈ NetBase64Codec.encode .rfc4648Mime value,
    isAlnum c = true ∨ c = byte '+' ∨ c = byte '/' ∨ c = byte '=' := by
  obtain ⟨body, k, heq, hbody, -, -⟩ := NetBase64Codec.encode_shape (a := .rfc4648Mime) value
  intro c hc
  rw [heq, mem_append] at hc
  rcases hc with hc | hc
  · have hsym := hbody c hc
    unfold Base64Alphabet.isSymbol at hsym
    rcases Bool.or_eq_true_iff.mp hsym with h | h
    · exact Or.inl h
    · have : c = byte '+' ∨ c = byte '/' := by simpa [oneOf, text] using h
      tauto
  · exact Or.inr (Or.inr (Or.inr (eq_of_mem_replicate hc)))

theorem ne_of_isAlnum {c d : Byte} (hc : isAlnum c = true) (hd : isAlnum d = false) : c ≠ d := by
  rintro rfl
  rw [hc] at hd
  exact Bool.noConfusion hd

theorem tokenEsc_byte {c : Byte}
    (hc : isAlnum c = true ∨ c = byte '+' ∨ c = byte '/' ∨ c = byte '=') :
    (∀ d ∈ tokenEsc [c], isValueByte d = true) ∧ tokenUnesc (tokenEsc [c]) = [c] := by
  rcases hc with hc | rfl | rfl | rfl
  · have h₁ : c ≠ byte '+' := ne_of_isAlnum hc (by decide)
    have h₂ : c ≠ byte '=' := ne_of_isAlnum hc (by decide)
    have h₃ : c ≠ byte '\'' := ne_of_isAlnum hc (by decide)
    have h₄ : c ≠ byte '\x60' := ne_of_isAlnum hc (by decide)
    simp [tokenEsc, tokenUnesc, isValueByte, h₁, h₂, h₃, h₄, hc]
  · decide +kernel
  · decide +kernel
  · decide +kernel

theorem tokenEsc_spec
    (hs : ∀ c ∈ s, isAlnum c = true ∨ c = byte '+' ∨ c = byte '/' ∨ c = byte '=') :
    (∀ d ∈ tokenEsc s, isValueByte d = true) ∧ tokenUnesc (tokenEsc s) = s := by
  induction s with
  | nil => exact ⟨by simp [tokenEsc], rfl⟩
  | cons c cs ih =>
    obtain ⟨hc, hcs⟩ := forall_mem_cons.mp hs
    obtain ⟨hbytes, hback⟩ := ih hcs
    obtain ⟨hbyte, hback₁⟩ := tokenEsc_byte hc
    have hesc : tokenEsc (c :: cs) = tokenEsc [c] ++ tokenEsc cs := by simp [tokenEsc]
    rw [hesc]
    refine ⟨fun d hd => ?_, ?_⟩
    · rcases mem_append.mp hd with hd | hd
      · exact hbyte d hd
      · exact hbytes d hd
    · have hunesc : tokenUnesc (tokenEsc [c] ++ tokenEsc cs) =
          tokenUnesc (tokenEsc [c]) ++ tokenUnesc (tokenEsc cs) := by simp [tokenUnesc]
      rw [hunesc, hback₁, hback]
      rfl

theorem decodeValue_encodeValue (value : Text) : decodeValue (encodeValue value) = some value := by
  by_cases hvalue : value = []
  · rw [hvalue]
    rfl
  · have hback := (tokenEsc_spec (bytes_encode_mime value)).2
    have hdecode := NetBase64Codec.decode_encode (a := .rfc4648Mime) hvalue
    have hne : encodeValue value ≠ [] := by
      intro hnil
      rw [encodeValue, tokenEsc, map_eq_nil_iff] at hnil
      rw [hnil] at hdecode
      simp [NetBase64Codec.decode, NetBase64Codec.decodeQuads, Ne.symm hvalue] at hdecode
    rw [decodeValue, if_neg hne, encodeValue, hback, hdecode]

theorem isValueByte_encodeValue (value : Text) : ∀ c ∈ encodeValue value, isValueByte c = true :=
  (tokenEsc_spec (bytes_encode_mime value)).1

theorem validPair_encodeValue (hname : ValidName name) (value : Text) :
    ValidPair (name, encodeValue value) :=
  ⟨hname, isValueByte_encodeValue value, by rw [decodeValue_encodeValue]; rfl⟩

/-! ## Cutting the signed bytes elsewhere -/

/-- The text ends in a pair that `decode` accepts. -/
def EndsInPair (s : Text) : Prop := ∃ p, ValidPair p ∧ pairText p <:+ s

/-- A Call-Id and the values signed with it whose concatenation cannot be cut at
another place.  Without values the Call-Id must not end in a whole pair.  A single
name must be shortened to no valid name, nor lengthened to one by an end of the
Call-Id, and the Call-Id must not bring a whole pair and a dot.  Of several values
no end of the last name may be valid. -/
def Sealed (callId : Text) : List (Text × Text) → Prop
  | [] => ¬ EndsInPair callId
  | [nv] =>
    (∀ b ∈ nv.1.tails, b ≠ nv.1 → ¬ ValidName b) ∧
    (∀ w ∈ callId.tails, w ≠ [] → ¬ ValidName (w ++ nv.1)) ∧
    (ValidName nv.1 → ∀ p, ValidPair p → ¬ pairText p ++ [byte '.'] <:+ callId)
  | _ :: nv :: nvs => ∀ b ∈ ((nv :: nvs).getLast (by simp)).1.tails, ¬ ValidName b

theorem joinPairs_concat (hps : ps ≠ []) (p : Text × Text) :
    joinPairs (ps ++ [p]) = joinPairs ps ++ byte '.' :: pairText p := by
  induction ps with
  | nil => exact absurd rfl hps
  | cons q qs ih =>
    cases qs with
    | nil => rfl
    | cons r rs =>
      rw [cons_append, joinPairs_cons q (by simp), ih (by simp),
        joinPairs_cons q (by simp)]
      simp

theorem joinPairs_last (hps : ps ≠ []) : (∃ p, ps = [p] ∧ joinPairs ps = pairText p) ∨
    ∃ qs p, qs ≠ [] ∧ ps = qs ++ [p] ∧ joinPairs ps = joinPairs qs ++ byte '.' :: pairText p := by
  rcases eq_nil_or_concat' ps with h | ⟨qs, p, rfl⟩
  · exact absurd h hps
  · by_cases hqs : qs = []
    · subst hqs
      exact Or.inl ⟨p, rfl, rfl⟩
    · exact Or.inr ⟨qs, p, hqs, rfl, joinPairs_concat hqs p⟩

theorem endsInPair_append_joinPairs (hne : ps ≠ []) (hps : ∀ p ∈ ps, ValidPair p) (s : Text) :
    ∃ p, ValidPair p ∧ pairText p <:+ s ++ joinPairs ps := by
  rcases joinPairs_last hne with ⟨p, rfl, hjoin⟩ | ⟨qs, p, -, rfl, hjoin⟩
  · exact ⟨p, hps p (by simp), by rw [hjoin]; exact suffix_append _ _⟩
  · refine ⟨p, hps p (by simp), ?_⟩
    rw [hjoin]
    exact ⟨s ++ joinPairs qs ++ [byte '.'], by simp⟩

/-- The places at which a text can be cut into a Call-Id and well-formed pairs. -/
def OnlyCut (callId nvpairs : Text) : Prop :=
  ∀ c ps, ps ≠ [] → (∀ p ∈ ps, ValidPair p) → callId ++ nvpairs = c ++ joinPairs ps → c = callId

theorem isValueByte_tilde {v : Text} (hv : ∀ c ∈ v, isValueByte c = true) :
    ∀ c ∈ v, (c != byte '~') = true := by
  intro c hc
  by_contra hcon
  have : c = byte '~' := by simpa using hcon
  have hbyte := hv c hc
  rw [this] at hbyte
  revert hbyte
  decide

theorem pairText_cancel {x y : Text} {q : Text × Text} (hp : ∀ c ∈ p.2, isValueByte c = true)
    (hq : ∀ c ∈ q.2, isValueByte c = true) (h : x ++ pairText p = y ++ pairText q) :
    x ++ p.1 = y ++ q.1 := by
  have hsplit : (x ++ p.1 ++ [byte '~']) ++ p.2 = (y ++ q.1 ++ [byte '~']) ++ q.2 := by
    simpa [pairText] using h
  have hfront := (append_inj_of_class_right (isValueByte_tilde hp) (isValueByte_tilde hq)
    (by simp) (by simp) hsplit).1
  exact (append_inj' hfront rfl).1

theorem not_dot_of_isRouteParameterName (h : IsRouteParameterName name) : byte '.' ∉ name := by
  intro hmem
  rcases bytes_of_isRouteParameterName h _ hmem with h | h <;> revert h <;> decide

theorem ValidName.not_dot (h : ValidName name) : byte '.' ∉ name := by
  intro hmem
  have h := h.2.1 _ hmem
  revert h
  decide

theorem suffix_of_append_dot {x y m n : Text} (hn : byte '.' ∉ n)
    (h : x ++ byte '.' :: m = y ++ n) : n <:+ m := by
  have h₁ : byte '.' :: m <:+ y ++ n := ⟨x, h⟩
  have h₂ : n <:+ y ++ n := suffix_append _ _
  rcases suffix_or_suffix_of_suffix h₁ h₂ with h | h
  · exact absurd (h.subset (by simp)) hn
  · rcases suffix_cons_iff.mp h with rfl | h
    · simp at hn
    · exact h

section Cut

variable {callId : Text}

theorem onlyCut_nil : OnlyCut callId [] ↔ Sealed callId [] := by
  constructor
  · rintro hcut ⟨p, hp, c, hc⟩
    have heq := hcut c [p] (by simp) (by simpa using hp) (by simp [joinPairs, hc])
    rw [heq] at hc
    simp [pairText] at hc
  · intro hsealed c ps hne hps heq
    obtain ⟨p, hp, hsuffix⟩ := endsInPair_append_joinPairs hne hps c
    rw [← heq, append_nil] at hsuffix
    exact absurd ⟨p, hp, hsuffix⟩ hsealed

theorem onlyCut_singleton {nv : Text × Text} (hname : IsRouteParameterName nv.1) :
    OnlyCut callId (pairText (nv.1, encodeValue nv.2)) ↔ Sealed callId [nv] := by
  constructor
  · intro hcut
    refine ⟨?_, ?_, ?_⟩
    · intro b hb hne hvalid
      obtain ⟨z, hz⟩ := (mem_tails _ _).mp hb
      have heq := hcut (callId ++ z) [(b, encodeValue nv.2)] (by simp)
        (by simpa using validPair_encodeValue hvalid nv.2)
        (by simp [joinPairs, pairText, ← hz])
      have : z = [] := by simpa using heq
      exact hne (by rw [← hz, this, nil_append])
    · intro w hw hne hvalid
      obtain ⟨c, hc⟩ := (mem_tails _ _).mp hw
      have heq := hcut c [(w ++ nv.1, encodeValue nv.2)] (by simp)
        (by simpa using validPair_encodeValue hvalid nv.2)
        (by simp [joinPairs, pairText, ← hc])
      rw [← hc] at heq
      exact hne (by simpa using heq)
    · rintro hvalid p hp ⟨c, hc⟩
      have heq := hcut c [p, (nv.1, encodeValue nv.2)] (by simp)
        (forall_mem_cons.mpr ⟨hp, by simpa using validPair_encodeValue hvalid nv.2⟩)
        (by simp [joinPairs, ← hc])
      rw [heq] at hc
      simp at hc
  · rintro ⟨hshort, hlong, hdot⟩ c ps hne hps heq
    have hvalue := isValueByte_encodeValue nv.2
    by_contra hc
    rcases joinPairs_last hne with ⟨p, rfl, hjoin⟩ | ⟨qs, p, hqs, rfl, hjoin⟩
    · -- one pair: its name is longer or shorter than the one signed
      have hp := hps p (by simp)
      rw [hjoin] at heq
      have hnames := pairText_cancel hvalue hp.2.1 heq
      rcases append_eq_append_iff.mp hnames with ⟨z, hz, hzn⟩ | ⟨w, hw, hwn⟩
      · refine hshort p.1 ((mem_tails _ _).mpr ⟨z, hzn.symm⟩) ?_ hp.1
        intro hsame
        have : z = [] := by simpa [hsame] using hzn
        exact hc (by rw [hz, this, append_nil])
      · refine hlong w ((mem_tails _ _).mpr ⟨c, hw.symm⟩) ?_ (by rw [← hwn]; exact hp.1)
        rintro rfl
        exact hc (by rw [hw, append_nil])
    · -- several pairs: all but the last come from the Call-Id
      have hp := hps p (by simp)
      have hnames : callId ++ nv.1 = (c ++ joinPairs qs ++ [byte '.']) ++ p.1 := by
        refine pairText_cancel (p := (nv.1, encodeValue nv.2)) hvalue hp.2.1 ?_
        rw [heq, hjoin]
        simp
      replace hnames : (c ++ joinPairs qs) ++ byte '.' :: p.1 = callId ++ nv.1 := by
        simpa using hnames.symm
      obtain ⟨w, hw⟩ := suffix_of_append_dot (not_dot_of_isRouteParameterName hname) hnames
      have hcall : callId = c ++ joinPairs qs ++ byte '.' :: w := by
        have happ : callId ++ nv.1 = (c ++ joinPairs qs ++ byte '.' :: w) ++ nv.1 := by
          rw [← hnames, ← hw]
          simp
        exact append_cancel_right happ
      by_cases hwnil : w = []
      · subst hwnil
        obtain ⟨q, hq, u, hu⟩ := endsInPair_append_joinPairs hqs
          (fun r hr => hps r (by simp [hr])) c
        have hvalid : ValidName nv.1 := by
          rw [nil_append] at hw
          rw [hw]
          exact hp.1
        exact hdot hvalid q hq ⟨u, by rw [hcall, ← hu]; simp⟩
      · refine hlong w ((mem_tails _ _).mpr ⟨c ++ joinPairs qs ++ [byte '.'], ?_⟩) hwnil ?_
        · rw [hcall]
          simp
        · rw [hw]
          exact hp.1

theorem onlyCut_concat {x n e : Text} (he : ∀ c ∈ e, isValueByte c = true)
    (hvalid : ∀ b, ValidName b → ValidPair (b, e)) :
    OnlyCut callId (x ++ byte '.' :: pairText (n, e)) ↔ ∀ b ∈ n.tails, ¬ ValidName b := by
  constructor
  · intro hcut b hb hb'
    obtain ⟨z, hz⟩ := (mem_tails _ _).mp hb
    have heq := hcut (callId ++ x ++ byte '.' :: z) [(b, e)] (by simp)
      (by simpa using hvalid b hb') (by simp [joinPairs, pairText, ← hz])
    simp at heq
  · intro htails c ps hne hps heq
    exfalso
    rcases joinPairs_last hne with ⟨p, rfl, hjoin⟩ | ⟨qs, p, -, rfl, hjoin⟩
    · have hp := hps p (by simp)
      have hnames : (callId ++ x ++ [byte '.']) ++ n = c ++ p.1 := by
        refine pairText_cancel (p := (n, e)) he hp.2.1 ?_
        rw [← hjoin, ← heq]
        simp
      have hsuffix := suffix_of_append_dot (m := n) (x := callId ++ x) (y := c) hp.1.not_dot
        (by simpa using hnames)
      exact htails p.1 ((mem_tails _ _).mpr hsuffix) hp.1
    · have hp := hps p (by simp)
      have hnames : (callId ++ x ++ [byte '.']) ++ n = (c ++ joinPairs qs ++ [byte '.']) ++ p.1 := by
        refine pairText_cancel (p := (n, e)) he hp.2.1 ?_
        have : callId ++ (x ++ byte '.' :: pairText (n, e)) =
            c ++ (joinPairs qs ++ byte '.' :: pairText p) := by rw [heq, hjoin]
        simpa using this
      have hsuffix := suffix_of_append_dot (m := n) (x := callId ++ x)
        (y := c ++ joinPairs qs ++ [byte '.']) hp.1.not_dot (by simpa using hnames)
      exact htails p.1 ((mem_tails _ _).mpr hsuffix) hp.1

end Cut

/-- A token can be cut in one way only exactly when its state is sealed. -/
theorem onlyCut_iff_sealed {st : RouteState} (hst : st.Named) :
    OnlyCut st.callId st.nvpairs ↔ Sealed st.callId st.values := by
  rw [nvpairs, encodePairs_true]
  unfold Named at hst
  match st.values, hst with
  | [], _ => exact onlyCut_nil
  | [nv], hst => exact onlyCut_singleton (hst nv (by simp))
  | nv :: nv' :: nvs, hst =>
    -- read the values from their end
    obtain ⟨init, last, hlast⟩ : ∃ init last, nv' :: nvs = init ++ [last] :=
      ⟨_, _, (dropLast_append_getLast (by simp)).symm⟩
    have hgetLast : (nv' :: nvs).getLast (by simp) = last := by simp [hlast]
    have hjoin : joinPairs ((nv :: nv' :: nvs).map fun nv => (nv.1, encodeValue nv.2)) =
        joinPairs ((nv :: init).map fun nv => (nv.1, encodeValue nv.2)) ++
          byte '.' :: pairText (last.1, encodeValue last.2) := by
      rw [hlast, ← cons_append, map_append]
      exact joinPairs_concat (by simp) _
    rw [hjoin, Sealed, hgetLast]
    exact onlyCut_concat (isValueByte_encodeValue last.2)
      (fun b hb => validPair_encodeValue hb last.2)

/-! ## Binding -/

/-- **Tokens are bound to their Call-Id.**  `log` holds the states that `encode` was
called for, and only `encode` can sign, so that a token presented carries a signature
from the log.  Where `decode` accepts it for a message, its text was signed for a
state with the Call-Id of that message, and its signature was made for no state with
another one. -/
def TokensBound (md5 : NetMd5Codec) (secret : Text) (log : List RouteState) : Prop :=
  ∀ (st : RouteState) (stateToken : Text),
    (st.decode md5 secret stateToken).2 = true →
    (∃ r ∈ log, carriedSignature stateToken = md5.hash (r.signedBytes secret)) →
      (∃ r ∈ log, r.callId = st.callId ∧ r.nvpairs = carriedPairs stateToken) ∧
      ∀ r ∈ log, r.callId ≠ st.callId →
        carriedSignature stateToken ≠ md5.hash (r.signedBytes secret)

theorem decode_snd_iff {st : RouteState} : (st.decode md5 secret stateToken).2 = true ↔
    ∃ values, decodeToken md5 secret st.callId stateToken = some values := by
  unfold decode
  cases decodeToken md5 secret st.callId stateToken <;> simp

theorem append_eq_of_signature {log : List RouteState}
    (hideal : md5.Ideal (log.map (signedBytes secret))) {r : RouteState} (hr : r ∈ log)
    {callId pairs : Text}
    (hsig : md5.hash (secret ++ callId ++ pairs) = md5.hash (r.signedBytes secret)) :
    r.callId ++ r.nvpairs = callId ++ pairs := by
  have heq := hideal _ (mem_map_of_mem hr) _ hsig
  rw [signedBytes, append_assoc, append_assoc] at heq
  exact (append_cancel_left heq).symm

/-- A caller's tag under a Call-Id that ends in a bracket. -/
def bracketCall : RouteState :=
  { callId := text "f81d4fae@[2001:db8::9:1]", values := [(text "*from", text "1928301774")] }

/-- A digest that knows what was signed for `bracketCall`. -/
def bracketMd5 : NetMd5Codec :=
  NetMd5Codec.ofTable [(bracketCall.signedBytes (text "s3cret"),
    text "d84c07a6a619121f5c8b048712c58728")] (by decide +kernel)

/-- A caller's tag under a Call-Id that ends in a letter. -/
def letterCall : RouteState :=
  { callId := text "a84b4c76e66710@pc33.atlanta.com"
    values := [(text "*from", text "1928301774")] }

/-- A digest that knows what was signed for `letterCall`. -/
def letterMd5 : NetMd5Codec :=
  NetMd5Codec.ofTable [(letterCall.signedBytes (text "s3cret"),
    text "769b73bac2e0bcc683f2c2897869590c")] (by decide +kernel)

end RouteState

end SipXRouter
