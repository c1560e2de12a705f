import SipXRouter.Pattern

/-!
# Written expressions

The pattern that a Perl-compatible regular expression stands for, as far as the expression has
no alternatives, no counted repetition and none of the classes that have names.
-/

namespace SipXRouter

open List

variable {m : Match} {n : Nat} {ps : List Pattern} {s : Text}

namespace Expression

open Pattern

/-! ## Tokens -/

/-- What stands for one byte. -/
inductive Atom where
  | any
  | set (negated : Bool) (members : Text)
  | byte (c : Byte)
deriving DecidableEq

/-- The tokens of an expression. -/
inductive Token where
  | bol | eol | opening | closing | star
  | atom (a : Atom)
deriving DecidableEq

/-- The members of a set are bytes and ranges.  No range may go down. -/
def classOf : Text → Option (Byte → Bool)
  | lo :: 45 :: hi :: members =>
    if lo ≤ hi then
      (classOf members).map fun p c => (decide (lo ≤ c) && decide (c ≤ hi)) || p c
    else none
  | c :: members => (classOf members).map fun p d => d == c || p d
  | [] => some fun _ => false

def Atom.class? : Atom → Option (Byte → Bool)
  | any => some (· != SipXRouter.byte '\n')
  | set negated members => (classOf members).map fun p c => p c != negated
  | byte c => some (· == c)

/-- Where the lexer stands: behind a backslash, behind the bracket that opens a set, or in one. -/
inductive Mode where
  | plain | escaped | opened
  | members (negated : Bool) (read : Text)
  | escapedMember (negated : Bool) (read : Text)
deriving DecidableEq

/-- The bytes that repeat what is in front of them, or separate alternatives. -/
def isOperator : Byte → Bool := oneOf "+?\x7b|"

/-- A byte that stands by itself. -/
def tokenOf (c : Byte) : Option Token :=
  if c = byte '^' then some .bol
  else if c = byte '$' then some .eol
  else if c = byte '(' then some .opening
  else if c = byte ')' then some .closing
  else if c = byte '.' then some (.atom .any)
  else if c = byte '*' then some .star
  else if isOperator c then none
  else some (.atom (.byte c))

/-- The tokens of an expression; `none` where it has something that is not modelled.  A backslash
takes its meaning from every byte but letters and digits. -/
def lex : Mode → Text → Option (List Token)
  | .plain, [] => some []
  | _, [] => none
  | .plain, c :: cs =>
    if c = byte '\\' then lex .escaped cs
    else if c = byte '[' then lex .opened cs
    else (tokenOf c).bind fun t => (lex .plain cs).map (t :: ·)
  | .escaped, c :: cs =>
    if isAlnum c then none else (lex .plain cs).map (.atom (.byte c) :: ·)
  | .opened, c :: cs =>
    if c = byte '^' then lex (.members true []) cs
    else if c = byte '\\' then lex (.escapedMember false []) cs
    -- the beginning of a class that has a name
    else if oneOf ":.=[]" c then none
    else lex (.members false [c]) cs
  | .members negated read, c :: cs =>
    if c = byte ']' then
      if read = [] then none
      else (lex .plain cs).map (.atom (.set negated read) :: ·)
    else if c = byte '[' then none
    else if c = byte '\\' then lex (.escapedMember negated read) cs
    else lex (.members negated (read ++ [c])) cs
  | .escapedMember negated read, c :: cs =>
    if isAlnum c then none else lex (.members negated (read ++ [c])) cs

/-! ## Patterns -/

/-- The pattern that tokens make.  `opened` are the groups that have not been closed, each with
what stands in front of it. -/
def assemble : (groups : Nat) → (opened : List (Nat × List Pattern)) → (done : List Pattern) →
    List Token → Option Pattern
  | _, [], done, [] => some (cat done)
  | _, _ :: _, _, [] => none
  | groups, opened, done, .bol :: ts => assemble groups opened (done ++ [bol]) ts
  | groups, opened, done, .eol :: ts => assemble groups opened (done ++ [eol]) ts
  | groups, opened, done, .opening :: ts =>
    assemble (groups + 1) ((groups + 1, done) :: opened) [] ts
  | groups, (k, before) :: opened, done, .closing :: ts =>
    assemble groups opened (before ++ [group k (cat done)]) ts
  | _, [], _, .closing :: _ => none
  | _, _, _, .star :: _ => none
  | groups, opened, done, .atom a :: .star :: ts =>
    match a.class? with
    | none => none
    | some p => assemble groups opened (done ++ [star (cls p)]) ts
  | groups, opened, done, .atom a :: ts =>
    match a.class? with
    | none => none
    | some p => assemble groups opened (done ++ [cls p]) ts

/-- The pattern of an expression, if it is one of those read here. -/
def compile (expression : Text) : Option Pattern :=
  (lex .plain expression).bind (assemble 0 [] [])

/-! ## Searching -/

theorem mem_run_cat_append {qs : List Pattern} {m₁ m₂ : Match}
    (h₁ : m₁ ∈ run (cat ps) n s) (h₂ : m₂ ∈ run (cat qs) (n + m₁.text.length) m₁.rest) :
    m₁.append m₂ ∈ run (cat (ps ++ qs)) n s := by
  induction ps generalizing n s m₁ with
  | nil =>
    obtain rfl := mem_run_eps.mp h₁
    simpa [Match.append] using h₂
  | cons p ps ih =>
    obtain ⟨m, hm, m', hm', rfl⟩ := mem_run_seq.mp h₁
    rw [Match.append_text, length_append, ← Nat.add_assoc] at h₂
    refine mem_run_seq.mpr ⟨m, hm, m'.append m₂, ih hm' h₂, ?_⟩
    simp [Match.append]

theorem rest_of_mem_run_eol
    (hm : m ∈ run (cat (ps ++ [eol])) n s) : m.rest = [] ∨ m.rest = [10] := by
  induction ps generalizing n s m with
  | nil =>
    obtain ⟨m₁, hm₁, m₂, hm₂, rfl⟩ := mem_run_seq.mp hm
    obtain ⟨hs, rfl⟩ := mem_run_eol.mp hm₁
    obtain rfl := mem_run_eps.mp hm₂
    exact hs
  | cons p ps ih =>
    obtain ⟨m₁, -, m₂, hm₂, rfl⟩ := mem_run_seq.mp hm
    have hrest : m₂.rest = [] ∨ m₂.rest = [10] := ih hm₂
    exact hrest

theorem text_of_mem_run_eol
    (hs : (10 : Byte) ∉ s) (hm : m ∈ run (cat (ps ++ [eol])) n s) : m.rest = [] ∧ m.text = s := by
  have happ := append_of_mem_run hm
  obtain hrest | hrest := rest_of_mem_run_eol hm
  · rw [hrest, append_nil] at happ
    exact ⟨hrest, happ.symm⟩
  · refine absurd ?_ hs
    rw [happ, hrest]
    exact mem_append_right _ mem_cons_self

theorem lang_cat_eol (ps : List Pattern) : lang (cat (ps ++ [eol])) = lang (cat ps) := by
  induction ps with
  | nil => exact mul_one _
  | cons p ps ih => exact congrArg (lang p * ·) ih

/-- **An expression between its anchors** finds a text exactly if the text is in its language. -/
theorem isSome_search_iff (hps : Plain (cat ps)) (hs : (10 : Byte) ∉ s) :
    (search (cat (bol :: (ps ++ [eol]))) s).isSome = true ↔ s ∈ lang (cat ps) := by
  show (search (seq bol (cat (ps ++ [eol]))) s).isSome = true ↔ _
  rw [search_bol]
  constructor
  · intro hsome
    obtain ⟨m, hm⟩ := Option.isSome_iff_exists.mp hsome
    obtain ⟨m₁, hm₁, m₂, hm₂, rfl⟩ := mem_run_seq.mp (mem_run_of_matchAt hm)
    obtain ⟨-, rfl⟩ := mem_run_bol.mp hm₁
    obtain ⟨-, htext⟩ := text_of_mem_run_eol hs hm₂
    have hlang := text_mem_lang hm₂
    rwa [htext, lang_cat_eol] at hlang
  · intro hlang
    obtain ⟨m, hm, htext, hrest⟩ := exists_mem_run hps s hlang 0 []
    rw [append_nil] at hm
    have hend : (⟨[], [], []⟩ : Match) ∈ run (cat [eol]) (0 + m.text.length) m.rest := by
      rw [hrest]
      have hnothing : (⟨[], [], []⟩ : Match) ∈ run eol (0 + m.text.length) [] :=
        mem_run_eol.mpr ⟨Or.inl rfl, rfl⟩
      exact mem_run_seq.mpr ⟨_, hnothing, _, mem_run_eps.mpr rfl, rfl⟩
    have hall : m.append ⟨[], [], []⟩ ∈ run (cat (ps ++ [eol])) 0 s := mem_run_cat_append hm hend
    have hwhole : (⟨[], s, []⟩ : Match).append (m.append ⟨[], [], []⟩) ∈
        run (seq bol (cat (ps ++ [eol]))) 0 s :=
      mem_run_seq.mpr ⟨⟨[], s, []⟩, mem_run_bol.mpr ⟨rfl, rfl⟩, _, hall, rfl⟩
    rw [matchAt, isSome_head?]
    exact ne_nil_of_mem hwhole

theorem group_of_mem_run {q : Pattern} {classes : List (Byte → Bool)} (hs : (10 : Byte) ∉ s)
    (hm : m ∈ run (cat (classes.map cls ++ [group 1 q] ++ [eol])) n s) :
    m.group 1 = some (s.drop classes.length) := by
  induction classes generalizing n s m with
  | nil =>
    obtain ⟨m₁, hm₁, m₂, hm₂, rfl⟩ := mem_run_seq.mp hm
    obtain ⟨m₀, hm₀, rfl⟩ := mem_run_group.mp hm₁
    have happ := append_of_mem_run hm₀
    have hrest : (10 : Byte) ∉ m₀.rest := fun h => hs (happ ▸ mem_append_right _ h)
    obtain ⟨m₃, hm₃, m₄, hm₄, rfl⟩ := mem_run_seq.mp hm₂
    obtain ⟨hend, rfl⟩ := mem_run_eol.mp hm₃
    obtain rfl := mem_run_eps.mp hm₄
    have hnil : m₀.rest = [] := hend.resolve_right fun h => hrest (h ▸ mem_cons_self)
    rw [hnil, append_nil] at happ
    show lookup 1 ([] ++ [] ++ (1, m₀.text) :: m₀.caps) = some s
    rw [← happ]
    rfl
  | cons p classes ih =>
    obtain ⟨m₁, hm₁, m₂, hm₂, rfl⟩ := mem_run_seq.mp hm
    obtain ⟨c, cs, rfl, -, rfl⟩ := mem_run_cls.mp hm₁
    have hrest := ih (fun h => hs (mem_cons_of_mem c h)) hm₂
    show lookup 1 (m₂.caps ++ []) = some (cs.drop classes.length)
    rw [append_nil]
    exact hrest

theorem group_of_search {q : Pattern} {classes : List (Byte → Bool)} (hs : (10 : Byte) ∉ s)
    (hm : search (cat (bol :: (classes.map cls ++ [group 1 q] ++ [eol]))) s = some m) :
    m.group 1 = some (s.drop classes.length) := by
  have hsearch : search (seq bol (cat (classes.map cls ++ [group 1 q] ++ [eol]))) s = some m := hm
  rw [search_bol] at hsearch
  obtain ⟨m₁, hm₁, m₂, hm₂, rfl⟩ := mem_run_seq.mp (mem_run_of_matchAt hsearch)
  obtain ⟨-, rfl⟩ := mem_run_bol.mp hm₁
  show lookup 1 (m₂.caps ++ []) = _
  rw [append_nil]
  exact group_of_mem_run hs hm₂

end Expression

end SipXRouter
