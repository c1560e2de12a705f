import SipXRouter.Net.UrlPrint
import SipXRouter.Utl.UtlString

/-!
# Escapes of field parameter values

`Url::gen_value_escape` means to put a backslash in front of a quote or a backslash.  It appends
two bytes from the address of a `char` instead: the character itself, and what the stack has
behind it.  `Url::gen_value_unescape` works on C strings in buffers of its own, which it does not
fill where it skips blanks.
-/

namespace SipXRouter

open List

namespace Url

open Pattern

/-! ## As they are written -/

/-- One character of `gen_value_escape`.  `junk` is what lies behind `unEscapedChar`. -/
def escapePair (junk : Byte) (c : Byte) : Text :=
  if c = byte '"' ∨ c = byte '\\' then [c, junk] else [c]

/-- `Url::gen_value_escape`; `junk i` lies behind `unEscapedChar` at the character `i`. -/
def genValueEscapeAt (junk : Nat → Byte) (value : Text) : Text :=
  if (search fieldParamValueOkUnquotedRegex (cString value)).isSome then value
  else
    byte '"' :: ((cString value).zipIdx.flatMap fun ci => escapePair (junk ci.2) ci.1) ++
      [byte '"']

/-- The loop of `gen_value_unescape` inside of quotes.  A backslash in front of a NUL is not
copied, and the loop goes on behind the NUL. -/
def unquoteRaw : Text → Text
  | [] => []
  | c :: cs =>
    if c = 0 then []
    else if c = byte '\\' then
      match cs with
      | [] => []
      | d :: ds => if d = 0 then unquoteRaw ds else d :: unquoteRaw ds
    else if c = byte '"' then []
    else c :: unquoteRaw cs

/-- The blanks that `gen_value_unescape` skips. -/
def isValueBlank : Byte → Bool := oneOf " \t"

/-- `Url::gen_value_unescape`.  It counts the blanks it skips without writing them, so that the
buffer keeps what the heap had there; behind the text lies `behind`.  The buffer replaces the
front of the text as a C string. -/
def genValueUnescapeIn (heap : Nat → Byte) (behind : Text) (escapedText : Text) : Text :=
  let memory := escapedText ++ 0 :: behind
  let blanks := (memory.takeWhile isValueBlank).length
  let rest := memory.drop blanks
  let result := (range blanks).map heap ++
    if rest.head? = some (byte '"') then unquoteRaw rest.tail else cString rest
  (cString result ++ escapedText.drop result.length).take result.length

/-! ## The loop inside of quotes -/

theorem unquoteRaw_zero (cs : Text) : unquoteRaw (0 :: cs) = [] := by
  rw [unquoteRaw.eq_def]
  rfl

theorem unquoteRaw_backslash (d : Byte) (ds : Text) :
    unquoteRaw (byte '\\' :: d :: ds) = if d = 0 then unquoteRaw ds else d :: unquoteRaw ds := by
  rw [unquoteRaw.eq_def]
  rfl

theorem unquoteRaw_quote (cs : Text) : unquoteRaw (byte '"' :: cs) = [] := by
  rw [unquoteRaw.eq_def]
  rfl

theorem unquoteRaw_plain {c : Byte} (hnul : c ≠ 0) (hback : c ≠ byte '\\')
    (hquote : c ≠ byte '"') (cs : Text) : unquoteRaw (c :: cs) = c :: unquoteRaw cs := by
  rw [unquoteRaw.eq_def]
  simp only [hnul, hback, hquote, if_false]

theorem zero_notMem_unquoteRaw (s : Text) : (0 : Byte) ∉ unquoteRaw s := by
  induction s using unquoteRaw.induct with
  | case1 => exact not_mem_nil
  | case2 cs =>
    rw [unquoteRaw_zero]
    exact not_mem_nil
  | case3 => exact not_mem_nil
  | case4 ds _ ih =>
    rw [unquoteRaw_backslash, if_pos rfl]
    exact ih
  | case5 d ds hd _ ih =>
    rw [unquoteRaw_backslash, if_neg hd, mem_cons, not_or]
    exact ⟨Ne.symm hd, ih⟩
  | case6 cs =>
    rw [unquoteRaw_quote]
    exact not_mem_nil
  | case7 c cs hnul hback hquote ih =>
    rw [unquoteRaw_plain hnul hback hquote, mem_cons, not_or]
    exact ⟨Ne.symm hnul, ih⟩

section Written

variable (junk : Nat → Byte)

/-- What `gen_value_escape` writes between the quotes, from the character `n` on. -/
def escapePairs (n : Nat) (value : Text) : Text :=
  (value.zipIdx n).flatMap fun ci => escapePair (junk ci.2) ci.1

variable {junk} {value : Text}

/-- No more is read than was written. -/
theorem length_unquoteRaw_escapePairs (hvalue : (0 : Byte) ∉ value) (n : Nat) (rest : Text) :
    (unquoteRaw (escapePairs junk n value ++ byte '"' :: rest)).length ≤ value.length := by
  induction value generalizing n with
  | nil =>
    rw [escapePairs, zipIdx_nil, flatMap_nil, nil_append, unquoteRaw_quote]
  | cons c value ih =>
    rw [mem_cons, not_or] at hvalue
    have hrest := ih hvalue.2 (n + 1)
    rw [escapePairs] at hrest ⊢
    rw [zipIdx_cons, flatMap_cons, escapePair, length_cons]
    by_cases hquote : c = byte '"'
    · rw [if_pos (Or.inl hquote), hquote, cons_append, cons_append, unquoteRaw_quote]
      exact Nat.zero_le _
    · by_cases hback : c = byte '\\'
      · rw [if_pos (Or.inr hback), hback, append_assoc, cons_append,
          singleton_append, unquoteRaw_backslash]
        split
        · omega
        · rw [length_cons]
          omega
      · rw [if_neg (by simp [hquote, hback]), append_assoc, singleton_append,
          unquoteRaw_plain (Ne.symm hvalue.1) hback hquote, length_cons]
        omega

/-- A value comes back exactly without a quote and with a backslash as the byte written behind
each
of its own. -/
theorem unquoteRaw_escapePairs_iff (hvalue : (0 : Byte) ∉ value) (n : Nat) (rest : Text) :
    unquoteRaw (escapePairs junk n value ++ byte '"' :: rest) = value ↔
      byte '"' ∉ value ∧
        ∀ i, value[i]? = some (byte '\\') → junk (n + i) = byte '\\' := by
  induction value generalizing n with
  | nil => simp [escapePairs, unquoteRaw_quote]
  | cons c value ih =>
    rw [mem_cons, not_or] at hvalue
    have hlength : (unquoteRaw (escapePairs junk (n + 1) value ++ byte '"' :: rest)).length ≤
        value.length := length_unquoteRaw_escapePairs hvalue.2 (n + 1) rest
    have hrest := ih hvalue.2 (n + 1)
    -- the condition on the backslashes, taken apart at the first character
    have hshift : (∀ i, (c :: value)[i]? = some (byte '\\') → junk (n + i) = byte '\\') ↔
        (c = byte '\\' → junk n = byte '\\') ∧
          ∀ i, value[i]? = some (byte '\\') → junk (n + 1 + i) = byte '\\' := by
      refine ⟨fun h => ⟨fun hc => h 0 (by rw [hc]; rfl), fun i hi => ?_⟩, fun h i hi => ?_⟩
      · rw [Nat.add_assoc, Nat.add_comm 1 i]
        exact h (i + 1) hi
      · cases i with
        | zero => exact h.1 (Option.some.inj hi)
        | succ i =>
          have := h.2 i hi
          rwa [Nat.add_assoc, Nat.add_comm 1 i] at this
    rw [hshift, mem_cons, not_or]
    rw [escapePairs] at hlength hrest ⊢
    rw [zipIdx_cons, flatMap_cons, escapePair]
    by_cases hquote : c = byte '"'
    · rw [if_pos (Or.inl hquote), hquote, cons_append, cons_append, unquoteRaw_quote]
      simp
    · by_cases hback : c = byte '\\'
      · rw [if_pos (Or.inr hback), hback, append_assoc, cons_append,
          singleton_append, unquoteRaw_backslash]
        by_cases hjunk : junk n = 0
        · have hne : unquoteRaw (((value.zipIdx (n + 1)).flatMap fun ci =>
              escapePair (junk ci.2) ci.1) ++ byte '"' :: rest) ≠ byte '\\' :: value := by
            intro heq
            rw [heq, length_cons] at hlength
            omega
          have hnul : (0 : Byte) ≠ byte '\\' := by decide
          simp only [hjunk, if_true, hne, hnul, true_imp_iff, false_and, and_false]
        · rw [if_neg hjunk, cons_eq_cons, hrest]
          have hmark : byte '"' ≠ byte '\\' := by decide
          simp only [hmark, not_false_iff, true_and, true_imp_iff]
          exact and_left_comm
      · rw [if_neg (by simp [hquote, hback]), append_assoc, singleton_append,
          unquoteRaw_plain (Ne.symm hvalue.1) hback hquote, cons_eq_cons, hrest]
        simp only [hback, false_imp_iff, true_and, Ne.symm hquote, not_false_iff]

end Written

/-! ## Reading a value again -/

theorem bytes_of_okUnquoted {value : Text}
    (hok : (search fieldParamValueOkUnquotedRegex value).isSome = true) :
    ∀ c ∈ value, c ≠ byte '"' ∧ c ≠ byte '\\' ∧ isValueBlank c = false := by
  have htoken : ∀ c, isTokenByte c = true →
      c ≠ byte '"' ∧ c ≠ byte '\\' ∧ isValueBlank c = false := by decide +kernel
  have hhost : ∀ c, isHostByte c = true →
      c ≠ byte '"' ∧ c ≠ byte '\\' ∧ isValueBlank c = false := by decide +kernel
  obtain ⟨body, tail, rfl, hbody, htail⟩ := exists_of_okUnquoted hok
  intro c hc
  rcases mem_append.mp hc with hc | hc
  · rcases hbody with hword | hword
    · exact htoken c (hword.2 c hc)
    · exact hhost c (bytes_of_isHost hword c hc)
  · rcases htail with rfl | rfl
    · exact absurd hc not_mem_nil
    · rw [mem_singleton.mp hc]
      decide

section Read

variable (heap : Nat → Byte) (behind : Text)

theorem take_cString_append {result : Text} (hresult : (0 : Byte) ∉ result) (s : Text) :
    (cString result ++ s).take result.length = result := by
  rw [cString_of_notMem hresult, take_left]

theorem genValueUnescapeIn_quoted (s : Text) :
    genValueUnescapeIn heap behind (byte '"' :: s) = unquoteRaw (s ++ 0 :: behind) := by
  have hblank : isValueBlank (byte '"') = false := by decide
  simp only [genValueUnescapeIn, cons_append, takeWhile_cons, hblank,
    Bool.false_eq_true, if_false, length_nil, drop_zero, range_zero, map_nil,
    nil_append, head?_cons, if_true, tail_cons]
  exact take_cString_append (zero_notMem_unquoteRaw _) _

theorem genValueUnescapeIn_plain {value : Text} (hnul : (0 : Byte) ∉ value)
    (hvalue : ∀ c ∈ value.head?, c ≠ byte '"' ∧ isValueBlank c = false) :
    genValueUnescapeIn heap behind value = value := by
  have hhead : ∀ c ∈ (value ++ 0 :: behind).head?, c ≠ byte '"' ∧ isValueBlank c = false := by
    cases value with
    | nil =>
      intro c hc
      obtain rfl : 0 = c := by simpa using hc
      decide
    | cons d ds => exact hvalue
  have hblanks : (value ++ 0 :: behind).takeWhile isValueBlank = [] := by
    cases hmemory : value ++ 0 :: behind with
    | nil => rfl
    | cons d ds =>
      rw [hmemory] at hhead
      rw [takeWhile_cons, (hhead d rfl).2]
      rfl
  have hquote : (value ++ 0 :: behind).head? ≠ some (byte '"') :=
    fun heq => (hhead _ heq).1 rfl
  have hrest : cString (value ++ 0 :: behind) = value := by
    rw [UtlString.cString_append, if_neg (by simpa using hnul)]
    simp [cString]
  simp only [genValueUnescapeIn, hblanks, length_nil, drop_zero, range_zero,
    map_nil, nil_append, hquote, if_false, hrest]
  exact take_cString_append hnul _

/-- **Round trip.**  A value is read again as it was if it has no quote, and behind every
backslash another one happened to lie on the stack. -/
theorem genValueUnescapeIn_escapeAt_iff {value : Text} (hvalue : (0 : Byte) ∉ value)
    (junk : Nat → Byte) :
    genValueUnescapeIn heap behind (genValueEscapeAt junk value) = value ↔
      byte '"' ∉ value ∧ ∀ i, value[i]? = some (byte '\\') → junk i = byte '\\' := by
  rw [genValueEscapeAt, cString_of_notMem hvalue]
  split
  · next hok =>
      have hbytes := bytes_of_okUnquoted hok
      have hread : genValueUnescapeIn heap behind value = value :=
        genValueUnescapeIn_plain heap behind hvalue fun c hc =>
          ⟨(hbytes c (mem_of_mem_head? hc)).1, (hbytes c (mem_of_mem_head? hc)).2.2⟩
      simp only [hread, true_iff]
      exact ⟨fun hmem => (hbytes _ hmem).1 rfl,
        fun i hi => absurd rfl (hbytes _ (mem_of_getElem? hi)).2.1⟩
  · rw [cons_append, genValueUnescapeIn_quoted, append_assoc, singleton_append]
    have hloop : unquoteRaw (escapePairs junk 0 value ++ byte '"' :: 0 :: behind) = value ↔ _ :=
      unquoteRaw_escapePairs_iff hvalue 0 (0 :: behind)
    simpa only [escapePairs, Nat.zero_add] using hloop

end Read

theorem genValueUnescapeIn_escapeAt_blank :
    genValueUnescapeIn (fun _ => 0) [] (genValueEscapeAt (fun _ => 0) (text "a b")) =
      text "a b" :=
  (genValueUnescapeIn_escapeAt_iff (fun _ => 0) [] (by decide) _).mpr
    ⟨by decide, fun i hi => absurd (mem_of_getElem? hi) (by decide)⟩

/-- A quote ends the value where it stands, and a backslash takes a byte of the stack with it. -/
theorem genValueUnescapeIn_escapeAt_marks :
    genValueUnescapeIn (fun _ => 0) [] (genValueEscapeAt (fun _ => 0) (text "\"")) = [] ∧
      genValueUnescapeIn (fun _ => 0) [] (genValueEscapeAt (fun _ => 0) (text "\\")) = [] := by
  decide

end Url

end SipXRouter
