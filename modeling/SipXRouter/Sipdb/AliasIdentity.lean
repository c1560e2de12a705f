import SipXRouter.Sipdb.EntityDB

/-!
# Aliases and domains

`EntityDB::findByAliasIdentity` takes a string apart at `@`, looks the first part up
as an alias and compares the second part with the end of the identity it finds.

The split merges `@`s in a row and keeps empty parts, the comparison is one of
suffixes, and of the records with the alias only the first is looked at.  The three
kinds of input on which this is not the lookup of an alias in a domain are `Misread`,
`SuffixOnly` and `Shadowed`; there are no others (`findsAliasIdentity_iff`).
-/

namespace SipXRouter

open List

variable {db : List EntityRecord} {host s user : Text}

namespace EntityDB

/-! ## The split -/

section Split

variable {sep : Byte → Bool}

theorem splitLoop_ne_nil (inSep : Bool) (cur s : Text) : splitLoop sep inSep cur s ≠ [] := by
  induction s generalizing inSep cur with
  | nil => exact cons_ne_nil _ _
  | cons c cs ih =>
    rw [splitLoop]
    split
    · split
      · exact ih _ _
      · exact cons_ne_nil _ _
    · exact ih _ _

theorem splitLoop_of_free (hs : ∀ c ∈ s, sep c = false) (inSep : Bool) (cur : Text) :
    splitLoop sep inSep cur s = [cur ++ s] := by
  induction s generalizing inSep cur with
  | nil => rw [splitLoop, append_nil]
  | cons c cs ih =>
    have hc : ¬ sep c = true := by simp [hs c mem_cons_self]
    rw [splitLoop, if_neg hc, ih fun d hd => hs d (mem_cons_of_mem _ hd)]
    simp

/-- A single token: separators in front of it were merged with one before. -/
theorem splitLoop_eq_singleton {x : Text} :
    ∀ {s cur : Text} {inSep : Bool}, splitLoop sep inSep cur s = [x] →
      ∃ lead, s = lead ++ x.drop cur.length ∧ cur <+: x ∧ (∀ c ∈ lead, sep c = true) ∧
        (∀ c ∈ x.drop cur.length, sep c = false) ∧ (inSep = false → lead = []) := by
  intro s
  induction s with
  | nil =>
    intro cur inSep h
    obtain rfl := singleton_inj.mp h
    exact ⟨[], by simp, prefix_rfl, by simp, by simp, fun _ => rfl⟩
  | cons c cs ih =>
    intro cur inSep h
    rw [splitLoop] at h
    by_cases hc : sep c = true
    · rw [if_pos hc] at h
      cases inSep with
      | true =>
        obtain ⟨lead, hcs, hcur, hlead, hfree, -⟩ := ih h
        refine ⟨c :: lead, by rw [hcs]; rfl, hcur, ?_, hfree, fun hf => by cases hf⟩
        exact forall_mem_cons.mpr ⟨hc, hlead⟩
      | false => exact absurd (List.cons.inj h).2 (splitLoop_ne_nil _ _ _)
    · rw [if_neg hc] at h
      obtain ⟨lead, hcs, ⟨tail, rfl⟩, -, hfree, hlead⟩ := ih h
      obtain rfl := hlead rfl
      have hdrop : ((cur ++ [c]) ++ tail).drop cur.length = c :: tail := by simp
      refine ⟨[], ?_, ⟨c :: tail, by simp⟩, by simp, ?_, fun _ => rfl⟩
      · rw [hdrop, hcs]
        simp
      · rw [hdrop]
        refine forall_mem_cons.mpr ⟨by simpa using hc, fun d hd => hfree d ?_⟩
        simpa using hd

/-- Two tokens, with at least one separator between them. -/
theorem splitLoop_eq_pair {x y : Text} : ∀ {s cur : Text}, splitLoop sep false cur s = [x, y] →
    ∃ w lead, s = w ++ lead ++ y ∧ x = cur ++ w ∧ lead ≠ [] ∧ (∀ c ∈ w, sep c = false) ∧
      (∀ c ∈ lead, sep c = true) ∧ ∀ c ∈ y, sep c = false := by
  intro s
  induction s with
  | nil =>
    intro cur h
    exact absurd (List.cons.inj h).2.symm (cons_ne_nil _ _)
  | cons c cs ih =>
    intro cur h
    rw [splitLoop] at h
    by_cases hc : sep c = true
    · rw [if_pos hc, if_neg Bool.false_ne_true] at h
      obtain ⟨rfl, hrest⟩ := List.cons.inj h
      obtain ⟨lead, hcs, -, hlead, hfree, -⟩ := splitLoop_eq_singleton hrest
      refine ⟨[], c :: lead, by rw [hcs]; rfl, by simp, cons_ne_nil _ _, by simp, ?_, hfree⟩
      exact forall_mem_cons.mpr ⟨hc, hlead⟩
    · rw [if_neg hc] at h
      obtain ⟨w, lead, hcs, hx, hne, hw, hlead, hy⟩ := ih h
      refine ⟨c :: w, lead, by rw [hcs]; rfl, by rw [hx]; simp, hne, ?_, hlead, hy⟩
      exact forall_mem_cons.mpr ⟨by simpa using hc, hw⟩

end Split

/-- The string is `user` and `host` with one or more `@` between them. -/
structure IsSplit (s user host : Text) : Prop where
  eq : ∃ k, s = user ++ replicate (k + 1) (byte '@') ++ host
  user : byte '@' ∉ user
  host : byte '@' ∉ host

theorem sep_eq_false_iff (t : Text) : (∀ c ∈ t, (c == byte '@') = false) ↔ byte '@' ∉ t := by
  constructor
  · intro h hmem
    exact absurd (h _ hmem) (by simp)
  · intro h c hc
    rw [beq_eq_false_iff_ne]
    rintro rfl
    exact h hc

theorem splitAt_eq_pair_iff (s user host : Text) :
    splitAt s = [user, host] ↔ IsSplit s user host := by
  constructor
  · intro h
    obtain ⟨w, lead, rfl, rfl, hne, hw, hlead, hhost⟩ := splitLoop_eq_pair h
    refine ⟨⟨lead.length - 1, ?_⟩, (sep_eq_false_iff _).mp hw, (sep_eq_false_iff _).mp hhost⟩
    have hpos : lead.length - 1 + 1 = lead.length :=
      Nat.sub_add_cancel (length_pos_iff.mpr hne)
    rw [hpos, ← eq_replicate_length.mpr fun c hc => eq_of_beq (hlead c hc)]
  · rintro ⟨⟨k, rfl⟩, huser, hhost⟩
    have hmerge : ∀ n, splitLoop (· == byte '@') true [] (replicate n (byte '@') ++ host) =
        [host] := by
      intro n
      induction n with
      | zero => exact splitLoop_of_free ((sep_eq_false_iff _).mpr hhost) _ _
      | succ n ih => exact ih
    have hscan : ∀ (w cur : Text), (∀ c ∈ w, (c == byte '@') = false) →
        splitLoop (· == byte '@') false cur (w ++ replicate (k + 1) (byte '@') ++ host) =
          [cur ++ w, host] := by
      intro w
      induction w with
      | nil =>
        intro cur _
        show cur :: splitLoop _ true [] (replicate k (byte '@') ++ host) = _
        rw [hmerge, append_nil]
      | cons c w ih =>
        intro cur hw
        have hc : ¬ (c == byte '@') = true := by simp [hw c mem_cons_self]
        have hrec := ih (cur ++ [c]) fun d hd => hw d (mem_cons_of_mem _ hd)
        rw [cons_append, cons_append, splitLoop, if_neg hc, hrec]
        simp
    exact hscan user [] ((sep_eq_false_iff _).mpr huser)

/-! ## Aliases of a domain -/

def HasHost (identity host : Text) : Prop := ∃ user, identity = user ++ byte '@' :: host

/-- The string is `user@host`, of two parts that are not empty. -/
def IsAddress (s user host : Text) : Prop :=
  s = user ++ byte '@' :: host ∧ byte '@' ∉ user ∧ byte '@' ∉ host ∧ user ≠ [] ∧ host ≠ []

/-- Some entity has the alias at the host. -/
def HasAliasAt (db : List EntityRecord) (user host : Text) : Prop :=
  ∃ entity ∈ db, (Query.mk .aliasId user).holds entity = true ∧ HasHost entity.identity host

/-- What `findByAliasIdentity` returns on an empty cache. -/
def findsAliasIdentity (db : List EntityRecord) (identity : Text) : Bool :=
  ((findByAliasIdentity identity).run Query.key (findOne db) []).1.isSome

/-- Not an address, but the record that its first part is an alias of ends in its second. -/
def Misread (db : List EntityRecord) (identity : Text) : Prop :=
  ∃ user host entity, IsSplit identity user host ∧ ¬ IsAddress identity user host ∧
    findOne db ⟨.aliasId, user⟩ = some entity ∧ host <:+ entity.identity

/-- The first record with the alias ends in the host, and no record with the alias has it
as its host. -/
def SuffixOnly (db : List EntityRecord) (identity : Text) : Prop :=
  ∃ user host entity, IsSplit identity user host ∧ findOne db ⟨.aliasId, user⟩ = some entity ∧
    host <:+ entity.identity ∧ ¬ HasAliasAt db user host

/-- A record of the host with the alias stands behind one with the alias that does not end
in the host. -/
def Shadowed (db : List EntityRecord) (identity : Text) : Prop :=
  ∃ user host entity, IsAddress identity user host ∧ findOne db ⟨.aliasId, user⟩ = some entity ∧
    ¬ host <:+ entity.identity ∧ HasAliasAt db user host

theorem IsAddress.isSplit (h : IsAddress s user host) :
    IsSplit s user host where
  eq := ⟨0, by rw [h.1]; simp⟩
  user := h.2.1
  host := h.2.2.1

theorem IsSplit.unique {user' host' : Text} (h : IsSplit s user host)
    (h' : IsSplit s user' host') : user = user' ∧ host = host' := by
  have hpair : [user, host] = [user', host'] :=
    ((splitAt_eq_pair_iff _ _ _).mpr h).symm.trans ((splitAt_eq_pair_iff _ _ _).mpr h')
  obtain ⟨huser, hrest⟩ := List.cons.inj hpair
  exact ⟨huser, singleton_inj.mp hrest⟩

/-- What the lookup says of a string of two parts. -/
theorem findsAliasIdentity_of_isSplit {identity : Text}
    (h : IsSplit identity user host) : findsAliasIdentity db identity = true ↔
      ∃ entity, findOne db ⟨.aliasId, user⟩ = some entity ∧ host <:+ entity.identity := by
  have hlookup : findByAliasIdentity identity =
      (findByAliasUserId user).bind fun found =>
        .done (found.filter fun entity => host.isSuffixOf entity.identity) := by
    rw [findByAliasIdentity, (splitAt_eq_pair_iff _ _ _).mpr h]
  have hrun : ((findByAliasIdentity identity).run Query.key (findOne db) []).1 =
      (findOne db ⟨.aliasId, user⟩).filter fun entity => host.isSuffixOf entity.identity := by
    have hfetch : (Memo.fetch Query.key (findOne db) ⟨.aliasId, user⟩ []).1 =
        findOne db ⟨.aliasId, user⟩ :=
      (Memo.fetch_eq (show Memo.Sound Query.key (findOne db) [] [] by simp [Memo.Sound])
        (fun q hq => absurd hq not_mem_nil)).1
    rw [hlookup, ← hfetch]
    rfl
  rw [findsAliasIdentity, hrun]
  cases findOne db ⟨.aliasId, user⟩ with
  | none => simp
  | some entity => simp [Option.filter_some, apply_ite]

/-- A string of another number of parts is not looked up. -/
theorem findsAliasIdentity_of_not_isSplit {identity : Text}
    (h : ∀ user host, ¬ IsSplit identity user host) : findsAliasIdentity db identity = false := by
  have hlookup : findByAliasIdentity identity = .done none := by
    rw [findByAliasIdentity]
    split
    · rename_i user host heq
      exact absurd ((splitAt_eq_pair_iff _ _ _).mp heq) (h user host)
    · rfl
  rw [findsAliasIdentity, hlookup]
  rfl

/-- Some address of the string is an alias of a record of its host. -/
def MatchesAlias (db : List EntityRecord) (identity : Text) : Prop :=
  ∃ user host, IsAddress identity user host ∧ HasAliasAt db user host

theorem exists_findOne_of_hasAliasAt
    (h : HasAliasAt db user host) : ∃ entity, findOne db ⟨.aliasId, user⟩ = some entity := by
  obtain ⟨entity, hmem, hholds, -⟩ := h
  exact Option.isSome_iff_exists.mp (find?_isSome.mpr ⟨entity, hmem, hholds⟩)

/-- Looking up an alias identity is looking up an alias in a domain, but for the three
kinds of input named above. -/
theorem findsAliasIdentity_iff (db : List EntityRecord) (identity : Text) :
    (findsAliasIdentity db identity = true ↔ MatchesAlias db identity) ↔
      ¬ Misread db identity ∧ ¬ SuffixOnly db identity ∧ ¬ Shadowed db identity := by
  by_cases hparts : ∃ user host, IsSplit identity user host
  · obtain ⟨user, host, hsplit⟩ := hparts
    have hmatches : MatchesAlias db identity ↔
        IsAddress identity user host ∧ HasAliasAt db user host := by
      constructor
      · rintro ⟨user', host', haddress, halias⟩
        obtain ⟨rfl, rfl⟩ := hsplit.unique haddress.isSplit
        exact ⟨haddress, halias⟩
      · exact fun h => ⟨user, host, h⟩
    rw [findsAliasIdentity_of_isSplit hsplit, hmatches]
    constructor
    · intro hiff
      refine ⟨?_, ?_, ?_⟩
      · rintro ⟨user', host', entity, hsplit', hnot, hfind, hsuffix⟩
        obtain ⟨rfl, rfl⟩ := hsplit.unique hsplit'
        exact hnot (hiff.mp ⟨entity, hfind, hsuffix⟩).1
      · rintro ⟨user', host', entity, hsplit', hfind, hsuffix, hnone⟩
        obtain ⟨rfl, rfl⟩ := hsplit.unique hsplit'
        exact hnone (hiff.mp ⟨entity, hfind, hsuffix⟩).2
      · rintro ⟨user', host', entity, haddress, hfind, hsuffix, halias⟩
        obtain ⟨rfl, rfl⟩ := hsplit.unique haddress.isSplit
        obtain ⟨entity', hfind', hsuffix'⟩ := hiff.mpr ⟨haddress, halias⟩
        obtain rfl := Option.some_inj.mp (hfind.symm.trans hfind')
        exact hsuffix hsuffix'
    · rintro ⟨hmisread, hsuffixOnly, hshadowed⟩
      constructor
      · rintro ⟨entity, hfind, hsuffix⟩
        constructor
        · by_contra hnot
          exact hmisread ⟨user, host, entity, hsplit, hnot, hfind, hsuffix⟩
        · by_contra hnone
          exact hsuffixOnly ⟨user, host, entity, hsplit, hfind, hsuffix, hnone⟩
      · rintro ⟨haddress, halias⟩
        obtain ⟨entity, hfind⟩ := exists_findOne_of_hasAliasAt halias
        refine ⟨entity, hfind, ?_⟩
        by_contra hsuffix
        exact hshadowed ⟨user, host, entity, haddress, hfind, hsuffix, halias⟩
  · -- not two parts: nothing is looked up, and there is no address
    have hnone : ∀ user host, ¬ IsSplit identity user host :=
      fun user host h => hparts ⟨user, host, h⟩
    rw [findsAliasIdentity_of_not_isSplit hnone]
    have hnot : ¬ MatchesAlias db identity :=
      fun ⟨user, host, haddress, _⟩ => hnone user host haddress.isSplit
    simp only [Bool.false_eq_true, hnot, true_iff]
    exact ⟨fun ⟨user, host, _, h, _⟩ => hnone user host h,
      fun ⟨user, host, _, h, _⟩ => hnone user host h,
      fun ⟨user, host, _, h, _⟩ => hnone user host h.isSplit⟩

/-- A user of `example.com` with an alias. -/
def salesUsers : List EntityRecord :=
  [⟨text "201@example.com", text "201", text "example.com", text "p2", text "DIGEST",
    [⟨text "sales", text "sip:201@example.com", text "alias"⟩]⟩]

/-- The alias is found in the domain `ample.com`. -/
theorem not_matchesAlias_of_suffix :
    ¬ (findsAliasIdentity salesUsers (text "sales@ample.com") = true ↔
      MatchesAlias salesUsers (text "sales@ample.com")) := by
  intro hiff
  obtain ⟨user, host, haddress, entity, hmem, -, before, hidentity⟩ := hiff.mp (by decide)
  have hsplit : IsSplit (text "sales@ample.com") (text "sales") (text "ample.com") :=
    (splitAt_eq_pair_iff _ _ _).mp (by decide)
  obtain ⟨-, rfl⟩ := hsplit.unique haddress.isSplit
  obtain rfl := mem_singleton.mp hmem
  -- the byte in front of the host is an `x`
  have hbefore : before = text "201@e" := by
    have hlength := congrArg length hidentity
    rw [length_append] at hlength
    have htake := congrArg (take 5) hidentity
    rw [take_left' (by simpa using (Nat.add_right_cancel hlength).symm)] at htake
    exact htake.symm
  rw [hbefore] at hidentity
  exact absurd hidentity (by decide)

end EntityDB

end SipXRouter
