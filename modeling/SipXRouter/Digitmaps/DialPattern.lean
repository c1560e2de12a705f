import SipXRouter.Expression
import SipXRouter.Digitmaps.UrlMapping

/-!
# The language of a user pattern

A user pattern is read as a sequence of items: `x` for one character, `.` for whatever is left,
sets in brackets, escaped characters and characters that stand for themselves.  The expression
that `convertRegularExpression` writes for it finds the user parts of its language.

Left out are the items for which the conversion writes something else: an escaped operator
(`\\+` becomes a repeated backslash), `|`, `^` and an opening brace, and sets with a backslash,
a dot, an `x` or a bracket.
-/

namespace SipXRouter

open List hiding lex
open Pattern Expression

/-- An item of a user pattern. -/
inductive DialItem where
  | one | rest
  | set (negated : Bool) (members : Text)
  | escaped (c : Byte)
  | literal (c : Byte)
deriving DecidableEq

namespace DialItem

/-- The bytes that the conversion escapes. -/
def isMeta : Byte → Bool := oneOf "+$?*()"

/-- The bytes that the conversion does not escape, though they mean something. -/
def isMissed (c : Byte) : Bool := oneOf "|^\x7b" c || c == 0

/-- The bytes that have an item of their own. -/
def isMark : Byte → Bool := oneOf "\\[.x"

/-- A member of a set. -/
def isMember (c : Byte) : Bool := !(isMark c || c == byte ']' || c == 0)

/-- The items that the conversion writes as they are meant. -/
def IsPlain : DialItem → Prop
  | one | rest => True
  | set negated members =>
    members ≠ [] ∧ (∀ c ∈ members, isMember c = true) ∧ (classOf members).isSome = true ∧
      (negated = false → ∀ c ∈ members.head?, oneOf "^:=" c = false)
  | escaped c => isMeta c = false ∧ isMissed c = false
  | literal c => isMark c = false ∧ isMissed c = false

/-- The item as it is written. -/
def text : DialItem → Text
  | one => [byte 'x']
  | rest => [byte '.']
  | set negated members =>
    byte '[' :: (if negated then [byte '^'] else []) ++ members ++ [byte ']']
  | escaped c => [byte '\\', c]
  | literal c => [c]

/-- The items at which the variable part begins. -/
def isVariable : DialItem → Bool
  | one | rest | set .. => true
  | escaped _ | literal _ => false

/-- The texts that the item stands for, where `x` is one byte of a class. -/
def lang (digit : Byte → Bool) : DialItem → Language Byte
  | one => {t | ∃ c, digit c = true ∧ t = [c]}
  | rest => {_t | True}
  | set negated members => {t | ∃ p c, classOf members = some p ∧ (p c != negated) = true ∧ t = [c]}
  | escaped c | literal c => {[c]}

/-- A member as the conversion writes it. -/
def writtenMember (c : Byte) : Text := if isMeta c then [byte '\\', c] else [c]

/-- The item as the conversion writes it. -/
def written : DialItem → Text
  | one => [byte '.']
  | rest => [byte '.', byte '*']
  | set negated members =>
    byte '[' :: (if negated then [byte '^'] else []) ++ members.flatMap writtenMember ++
      [byte ']']
  | escaped c => if c = byte '[' ∨ c = byte '.' ∨ c = byte '\\' then [byte '\\', c] else [c]
  | literal c => writtenMember c

/-- The tokens of what is written. -/
def tokens : DialItem → List Token
  | one => [.atom .any]
  | rest => [.atom .any, .star]
  | set negated members => [.atom (.set negated members)]
  | escaped c | literal c => [.atom (.byte c)]

/-- The pattern of what is written. -/
def pattern : DialItem → Pattern
  | one => cls (· != byte '\n')
  | rest => star (cls (· != byte '\n'))
  | set negated members => cls fun c => ((classOf members).getD fun _ => false) c != negated
  | escaped c | literal c => cls (· == c)

end DialItem

/-- A user pattern of items that the conversion writes as they are meant. -/
structure DialPattern where
  items : List DialItem
  isPlain_items : ∀ i ∈ items, i.IsPlain

variable {c : Byte} {i : DialItem} {items : List DialItem} {ts : List Token}

namespace DialPattern

open UrlMapping

/-- The pattern as it is written. -/
def text (d : DialPattern) : Text := d.items.flatMap DialItem.text

/-- The numbers that match a list of items: a word of each item, one behind the other. -/
def langOf (digit : Byte → Bool) (items : List DialItem) : Language Byte :=
  (items.map (DialItem.lang digit)).prod

/-- The user parts that the pattern stands for, where `x` is any character. -/
def lang (d : DialPattern) : Language Byte := langOf (fun _ => true) d.items

/-- The items in front of the variable part. -/
def fixed (d : DialPattern) : List DialItem := d.items.takeWhile (!·.isVariable)

/-- The variable part. -/
def varying (d : DialPattern) : List DialItem := d.items.dropWhile (!·.isVariable)

/-! ## The conversion -/

theorem byte_classes : ∀ c : Byte,
    (DialItem.isMember c = true → c ≠ byte '\\' ∧ c ≠ byte '[' ∧ c ≠ byte '.' ∧ c ≠ byte 'x' ∧
      c ≠ byte ']') ∧
    (DialItem.isMark c = false → c ≠ byte '\\' ∧ c ≠ byte '[' ∧ c ≠ byte '.' ∧ c ≠ byte 'x') ∧
    (DialItem.isMeta c = true → isAlnum c = false) := by
  decide +kernel

/-- The parenthesis that opens the variable part, in front of its first item. -/
def opening (seenNonConstant : Bool) (i : DialItem) : Text :=
  if i.isVariable && !seenNonConstant then [byte '('] else []

theorem convertChar_plain (hmark : DialItem.isMark c = false) (seenNonConstant : Bool) :
    convertChar false seenNonConstant c = (DialItem.writtenMember c, seenNonConstant) := by
  obtain ⟨hslash, hset, hdot, hone⟩ := (byte_classes c).2.1 hmark
  unfold convertChar DialItem.writtenMember DialItem.isMeta
  simp only [if_neg hset, if_neg hdot, if_neg hone, if_neg hslash, Bool.false_eq_true, if_false,
    nil_append]
  split <;> rfl

/-- A character that stands for itself. -/
theorem convertLoop_plain (hmark : DialItem.isMark c = false) (seenNonConstant : Bool)
    (cs : Text) : convertLoop seenNonConstant (c :: cs) =
      (convertLoop seenNonConstant cs).map fun r => (DialItem.writtenMember c ++ r.1, r.2) := by
  rw [convertLoop.eq_def]
  dsimp only
  rw [if_neg ((byte_classes c).2.1 hmark).1, convertChar_plain hmark]

/-- Characters that stand for themselves. -/
theorem convertLoop_members {members : Text} (hmembers : ∀ c ∈ members, DialItem.isMark c = false)
    (seenNonConstant : Bool) (cs : Text) :
    convertLoop seenNonConstant (members ++ cs) = (convertLoop seenNonConstant cs).map fun r =>
      (members.flatMap DialItem.writtenMember ++ r.1, r.2) := by
  induction members with
  | nil => cases h : convertLoop seenNonConstant cs <;> simp [h]
  | cons c members ih =>
    rw [cons_append, convertLoop_plain (hmembers c mem_cons_self),
      ih fun d hd => hmembers d (mem_cons_of_mem c hd), Option.map_map]
    congr 1
    funext r
    simp

/-- An item that is one character, without an escape. -/
theorem convertLoop_char (hc : c ≠ byte '\\') (seenNonConstant : Bool) (cs : Text) :
    convertLoop seenNonConstant (c :: cs) =
      (convertLoop (convertChar false seenNonConstant c).2 cs).map fun r =>
        ((convertChar false seenNonConstant c).1 ++ r.1, r.2) := by
  rw [convertLoop.eq_def]
  exact if_neg hc

theorem convertChar_escaped (hmeta : DialItem.isMeta c = false) (seenNonConstant : Bool) :
    convertChar true seenNonConstant c = ((DialItem.escaped c).written, seenNonConstant) := by
  have hopened : oneOf "+$?*()" c = false := hmeta
  unfold convertChar
  rw [hopened, DialItem.written]
  by_cases hset : c = byte '['
  · rw [hset]
    rfl
  by_cases hdot : c = byte '.'
  · rw [hdot]
    rfl
  by_cases hslash : c = byte '\\'
  · rw [hslash]
    rfl
  rw [if_neg hset, if_neg hdot, if_neg Bool.false_ne_true,
    if_neg (not_or.mpr ⟨hset, not_or.mpr ⟨hdot, hslash⟩⟩)]
  by_cases hone : c = byte 'x'
  · rw [hone]
    rfl
  · rw [if_neg hone, if_neg hslash]

/-- **One item.** -/
theorem convertLoop_item (hi : i.IsPlain) (seenNonConstant : Bool) (cs : Text) :
    convertLoop seenNonConstant (i.text ++ cs) =
      (convertLoop (seenNonConstant || i.isVariable) cs).map fun r =>
        (opening seenNonConstant i ++ i.written ++ r.1, r.2) := by
  cases i with
  | one =>
    rw [DialItem.text, singleton_append, convertLoop_char (by decide)]
    cases seenNonConstant <;> rfl
  | rest =>
    rw [DialItem.text, singleton_append, convertLoop_char (by decide)]
    cases seenNonConstant <;> rfl
  | escaped c =>
    rw [DialItem.text, cons_append, singleton_append, convertLoop.eq_def]
    dsimp only
    rw [if_pos rfl, convertChar_escaped hi.1]
    cases seenNonConstant <;> rfl
  | literal c =>
    rw [DialItem.text, singleton_append, convertLoop_plain hi.1]
    cases seenNonConstant <;> rfl
  | set negated members =>
    obtain ⟨-, hmembers, -⟩ := hi
    have hmark : ∀ c ∈ members, DialItem.isMark c = false := fun c hc => by
      have hmember := hmembers c hc
      simp only [DialItem.isMember, Bool.not_eq_true', Bool.or_eq_false_iff] at hmember
      exact hmember.1.1
    -- behind the bracket the group has been opened
    have hbody : ∀ cs, convertLoop true (members ++ byte ']' :: cs) =
        (convertLoop true cs).map fun r =>
          (members.flatMap DialItem.writtenMember ++ byte ']' :: r.1, r.2) := by
      intro cs
      rw [convertLoop_members hmark, convertLoop_plain (by decide), Option.map_map]
      rfl
    have hwhole : ∀ cs, convertLoop true
        ((if negated then [byte '^'] else []) ++ (members ++ byte ']' :: cs)) =
          (convertLoop true cs).map fun r => ((if negated then [byte '^'] else []) ++
            (members.flatMap DialItem.writtenMember ++ byte ']' :: r.1), r.2) := by
      intro cs
      cases negated with
      | false => exact hbody cs
      | true =>
        rw [if_pos rfl, singleton_append, convertLoop_plain (by decide), hbody,
          Option.map_map]
        rfl
    have htext : (DialItem.set negated members).text ++ cs =
        byte '[' :: ((if negated then [byte '^'] else []) ++ (members ++ byte ']' :: cs)) := by
      simp [DialItem.text]
    have hopened : (convertChar false seenNonConstant (byte '[')).2 = true := rfl
    rw [htext, convertLoop_char (by decide), hopened, hwhole, Option.map_map]
    have hseen : (seenNonConstant || (DialItem.set negated members).isVariable) = true :=
      Bool.or_true _
    rw [hseen]
    congr 1
    funext r
    cases seenNonConstant <;>
      simp [DialItem.written, opening, DialItem.isVariable, convertChar, SipXRouter.text]

/-- How a list of items is written in a mapping. -/
def writtenOf (items : List DialItem) : Text := items.flatMap DialItem.written

theorem convertLoop_seen (hitems : ∀ i ∈ items, i.IsPlain) :
    convertLoop true (items.flatMap DialItem.text) = some (writtenOf items, true) := by
  induction items with
  | nil => rfl
  | cons i items ih =>
    rw [flatMap_cons, convertLoop_item (hitems i mem_cons_self), Bool.true_or,
      ih fun j hj => hitems j (mem_cons_of_mem i hj)]
    simp [opening, writtenOf]

/-- **The loop**: the group is opened in front of the first variable item. -/
theorem convertLoop_items (hitems : ∀ i ∈ items, i.IsPlain) :
    convertLoop false (items.flatMap DialItem.text) =
      some (writtenOf (items.takeWhile (!·.isVariable)) ++
        (if items.dropWhile (!·.isVariable) = [] then []
          else byte '(' :: writtenOf (items.dropWhile (!·.isVariable))),
        decide (items.dropWhile (!·.isVariable) ≠ [])) := by
  induction items with
  | nil => rfl
  | cons i items ih =>
    have hrest : ∀ j ∈ items, j.IsPlain := fun j hj => hitems j (mem_cons_of_mem i hj)
    rw [flatMap_cons, convertLoop_item (hitems i mem_cons_self), Bool.false_or]
    cases hvariable : i.isVariable with
    | true =>
      rw [convertLoop_seen hrest]
      simp [opening, hvariable, writtenOf]
    | false =>
      rw [ih hrest]
      simp [opening, hvariable, writtenOf]

/-! ## The expression -/

theorem tokenOf_plain : ∀ c : Byte, DialItem.isMeta c = false → DialItem.isMissed c = false →
    c ≠ byte '.' → tokenOf c = some (.atom (.byte c)) := by
  decide +kernel

theorem lex_writtenMember (hmark : DialItem.isMark c = false)
    (hmissed : DialItem.isMissed c = false) (rest : Text) :
    lex .plain (DialItem.writtenMember c ++ rest) =
      (lex .plain rest).map (.atom (.byte c) :: ·) := by
  obtain ⟨hslash, hset, hdot, -⟩ := (byte_classes c).2.1 hmark
  rw [DialItem.writtenMember]
  cases hmeta : DialItem.isMeta c with
  | true =>
    rw [if_pos rfl, cons_append, lex, if_pos rfl, singleton_append, lex,
      (byte_classes c).2.2 hmeta, if_neg Bool.false_ne_true]
  | false =>
    rw [if_neg Bool.false_ne_true, singleton_append, lex, if_neg hslash, if_neg hset,
      tokenOf_plain c hmeta hmissed hdot]
    rfl

theorem lex_member (hc : DialItem.isMember c = true) (negated : Bool)
    (read rest : Text) : lex (.members negated read) (DialItem.writtenMember c ++ rest) =
      lex (.members negated (read ++ [c])) rest := by
  obtain ⟨hslash, hset, -, -, hclose⟩ := (byte_classes c).1 hc
  rw [DialItem.writtenMember]
  cases hmeta : DialItem.isMeta c with
  | true =>
    rw [if_pos rfl, cons_append, lex, if_neg (by decide), if_neg (by decide), if_pos rfl,
      singleton_append, lex, (byte_classes c).2.2 hmeta, if_neg Bool.false_ne_true]
  | false =>
    rw [if_neg Bool.false_ne_true, singleton_append, lex, if_neg hclose, if_neg hset,
      if_neg hslash]

theorem lex_members {members : Text} (hmembers : ∀ c ∈ members, DialItem.isMember c = true)
    (negated : Bool) {read : Text} (hne : read ++ members ≠ []) (rest : Text) :
    lex (.members negated read) (members.flatMap DialItem.writtenMember ++ byte ']' :: rest) =
      (lex .plain rest).map (.atom (.set negated (read ++ members)) :: ·) := by
  induction members generalizing read with
  | nil =>
    rw [append_nil] at hne ⊢
    rw [flatMap_nil, nil_append, lex, if_pos rfl, if_neg hne]
  | cons c members ih =>
    rw [flatMap_cons, append_assoc, lex_member (hmembers c mem_cons_self),
      ih (fun d hd => hmembers d (mem_cons_of_mem c hd)) (by simp), append_assoc,
      singleton_append]

theorem lex_opened (hc : DialItem.isMember c = true) (hfirst : oneOf "^:=" c = false)
    (rest : Text) :
    lex .opened (DialItem.writtenMember c ++ rest) = lex (.members false [c]) rest := by
  have hbytes : ∀ c : Byte, DialItem.isMember c = true → oneOf "^:=" c = false →
      c ≠ byte '^' ∧ oneOf ":.=[]" c = false := by
    decide +kernel
  obtain ⟨hnegation, hname⟩ := hbytes c hc hfirst
  rw [DialItem.writtenMember]
  cases hmeta : DialItem.isMeta c with
  | true =>
    rw [if_pos rfl, cons_append, lex, if_neg (by decide), if_pos rfl, singleton_append,
      lex, (byte_classes c).2.2 hmeta, if_neg Bool.false_ne_true, nil_append]
  | false =>
    rw [if_neg Bool.false_ne_true, singleton_append, lex, if_neg hnegation,
      if_neg ((byte_classes c).1 hc).1, hname, if_neg Bool.false_ne_true]

/-- **The tokens of an item.** -/
theorem lex_item (hi : i.IsPlain) (rest : Text) :
    lex .plain (i.written ++ rest) = (lex .plain rest).map (i.tokens ++ ·) := by
  cases i with
  | one => rfl
  | rest =>
    show (tokenOf (byte '.')).bind (fun t => Option.map (t :: ·)
      ((tokenOf (byte '*')).bind fun t => (lex .plain _).map (t :: ·))) = _
    show Option.map _ (Option.map _ _) = _
    rw [Option.map_map]
    rfl
  | literal c => exact lex_writtenMember hi.1 hi.2 rest
  | escaped c =>
    rw [DialItem.written]
    split
    · next hmark =>
        have halnum : isAlnum c = false := by
          obtain rfl | rfl | rfl := hmark <;> rfl
        rw [cons_append, lex, if_pos rfl, singleton_append, lex, halnum,
          if_neg Bool.false_ne_true]
        rfl
    · next hmark =>
        obtain ⟨hset, hother⟩ := not_or.mp hmark
        obtain ⟨hdot, hslash⟩ := not_or.mp hother
        rw [singleton_append, lex, if_neg hslash, if_neg hset,
          tokenOf_plain c hi.1 hi.2 hdot]
        rfl
  | set negated members =>
    obtain ⟨hne, hmembers, -, hfirst⟩ := hi
    have htext : (DialItem.set negated members).written ++ rest = byte '[' ::
        ((if negated then [byte '^'] else []) ++
          (members.flatMap DialItem.writtenMember ++ byte ']' :: rest)) := by
      simp [DialItem.written]
    rw [htext, lex, if_neg (by decide), if_pos rfl]
    cases negated with
    | true =>
      rw [if_pos rfl, singleton_append, lex, if_pos rfl,
        lex_members hmembers true (by simpa using hne)]
      rfl
    | false =>
      obtain ⟨c, members, rfl⟩ := exists_cons_of_ne_nil hne
      rw [if_neg Bool.false_ne_true, nil_append, flatMap_cons, append_assoc,
        lex_opened (hmembers c mem_cons_self) (hfirst rfl c rfl),
        lex_members (fun d hd => hmembers d (mem_cons_of_mem c hd)) false (by simp)]
      rfl

theorem lex_items (hitems : ∀ i ∈ items, i.IsPlain) (rest : Text) :
    lex .plain (writtenOf items ++ rest) =
      (lex .plain rest).map (items.flatMap DialItem.tokens ++ ·) := by
  induction items with
  | nil => cases h : lex .plain rest <;> simp [writtenOf, h]
  | cons i items ih =>
    have hsplit : writtenOf (i :: items) ++ rest = i.written ++ (writtenOf items ++ rest) := by
      simp [writtenOf]
    rw [hsplit, lex_item (hitems i mem_cons_self),
      ih fun j hj => hitems j (mem_cons_of_mem i hj), Option.map_map]
    congr 1
    funext ts
    simp

/-- The tokens of one item give the pattern of that item. -/
theorem assemble_item (hi : i.IsPlain) (groups : Nat)
    (opened : List (Nat × List Pattern)) (done : List Pattern)
    (hts : ts.head? ≠ some .star) : assemble groups opened done (i.tokens ++ ts) =
      assemble groups opened (done ++ [i.pattern]) ts := by
  have hatom : ∀ (a : Atom) (p : Byte → Bool), a.class? = some p →
      assemble groups opened done (.atom a :: ts) =
        assemble groups opened (done ++ [cls p]) ts := by
    intro a p hp
    rw [assemble]
    · rw [hp]
    · rintro ts rfl
      exact hts rfl
  cases i with
  | one => exact hatom .any _ rfl
  | rest =>
    show assemble groups opened done (.atom .any :: .star :: ts) = _
    rw [assemble]
    rfl
  | escaped c => exact hatom (.byte c) _ rfl
  | literal c => exact hatom (.byte c) _ rfl
  | set negated members =>
    obtain ⟨p, hp⟩ := Option.isSome_iff_exists.mp hi.2.2.1
    have hclass : (Atom.set negated members).class? = some fun c => p c != negated := by
      rw [Atom.class?, hp]
      rfl
    have hpattern : (DialItem.set negated members).pattern = cls fun c => p c != negated := by
      rw [DialItem.pattern, hp]
      rfl
    rw [hpattern]
    exact hatom _ _ hclass

theorem head?_tokens_ne_star (hts : ts.head? ≠ some .star)
    (items : List DialItem) : (items.flatMap DialItem.tokens ++ ts).head? ≠ some .star := by
  cases items with
  | nil => exact hts
  | cons i items => cases i <;> exact fun h => nomatch Option.some.inj h

theorem assemble_items (hitems : ∀ i ∈ items, i.IsPlain) (groups : Nat)
    (opened : List (Nat × List Pattern)) (done : List Pattern) (hts : ts.head? ≠ some .star) :
    assemble groups opened done (items.flatMap DialItem.tokens ++ ts) =
      assemble groups opened (done ++ items.map DialItem.pattern) ts := by
  induction items generalizing done with
  | nil => rw [map_nil, append_nil]; rfl
  | cons i items ih =>
    have hhead := head?_tokens_ne_star hts items
    rw [flatMap_cons, append_assoc,
      assemble_item (hitems i mem_cons_self) groups opened done hhead,
      ih fun j hj => hitems j (mem_cons_of_mem i hj), append_assoc]
    rfl

/-- The expression for a pattern: its fixed part, then the variable part as the first group. -/
def expressionPattern (d : DialPattern) : Pattern :=
  cat (bol :: (d.fixed.map DialItem.pattern ++
    (if d.varying = [] then [] else [group 1 (cat (d.varying.map DialItem.pattern))]) ++ [eol]))

theorem fixed_append_varying (d : DialPattern) : d.fixed ++ d.varying = d.items :=
  takeWhile_append_dropWhile

theorem isPlain_fixed (d : DialPattern) : ∀ i ∈ d.fixed, i.IsPlain := fun i hi =>
  d.isPlain_items i ((List.takeWhile_prefix _).subset hi)

theorem isPlain_varying (d : DialPattern) : ∀ i ∈ d.varying, i.IsPlain := fun i hi =>
  d.isPlain_items i ((dropWhile_suffix _).subset hi)

/-- The expression that the conversion writes. -/
def expression (d : DialPattern) : Text :=
  byte '^' :: (writtenOf d.fixed ++
    (if d.varying = [] then [] else byte '(' :: (writtenOf d.varying ++ [byte ')'])) ++ [byte '$'])

/-- **The conversion ends within the pattern.** -/
theorem convertRegularExpression_text (d : DialPattern) :
    convertRegularExpression d.text = some d.expression := by
  unfold convertRegularExpression
  rw [text, convertLoop_items d.isPlain_items]
  show some _ = some _
  congr 1
  show _ = byte '^' :: (writtenOf d.fixed ++ _ ++ [byte '$'])
  by_cases hvarying : d.varying = []
  · have hnone : d.items.dropWhile (!·.isVariable) = [] := hvarying
    rw [if_pos hvarying, hnone]
    simp [SipXRouter.text, fixed]
  · have hsome : d.items.dropWhile (!·.isVariable) ≠ [] := hvarying
    rw [if_neg hvarying, if_neg hsome, decide_eq_true hsome]
    simp [SipXRouter.text, fixed, varying]

/-- **The expression is read** as the pattern of its items. -/
theorem compile_expression (d : DialPattern) : compile d.expression = some d.expressionPattern := by
  have hend : lex .plain [byte '$'] = some [.eol] := rfl
  have hbegin : ∀ s ts, lex .plain s = some ts →
      lex .plain (byte '^' :: s) = some (.bol :: ts) := by
    intro s ts hs
    show (lex .plain s).map (Token.bol :: ·) = _
    rw [hs]
    rfl
  rw [compile, expression, expressionPattern]
  by_cases hvarying : d.varying = []
  · rw [if_pos hvarying, if_pos hvarying, append_nil, append_nil,
      hbegin _ (d.fixed.flatMap DialItem.tokens ++ [.eol])
        (by rw [lex_items d.isPlain_fixed, hend]; rfl)]
    show assemble 0 [] [bol] (d.fixed.flatMap DialItem.tokens ++ [.eol]) = _
    rw [assemble_items d.isPlain_fixed 0 [] [bol] (by simp)]
    rfl
  · have hgroup : lex .plain (byte '(' :: (writtenOf d.varying ++ [byte ')']) ++ [byte '$']) =
        some (.opening :: (d.varying.flatMap DialItem.tokens ++ [.closing, .eol])) := by
      show (lex .plain (writtenOf d.varying ++ [byte ')'] ++ [byte '$'])).map (.opening :: ·) = _
      rw [append_assoc, lex_items d.isPlain_varying]
      rfl
    rw [if_neg hvarying, if_neg hvarying, append_assoc,
      hbegin _ (d.fixed.flatMap DialItem.tokens ++
        .opening :: (d.varying.flatMap DialItem.tokens ++ [.closing, .eol]))
        (by rw [lex_items d.isPlain_fixed, hgroup]; rfl)]
    show assemble 0 [] [bol] (d.fixed.flatMap DialItem.tokens ++ _) = _
    rw [assemble_items d.isPlain_fixed 0 [] [bol] (by simp)]
    show assemble 1 [(1, _)] [] (d.varying.flatMap DialItem.tokens ++ [.closing, .eol]) = _
    rw [assemble_items d.isPlain_varying 1 _ [] (by simp)]
    show some (cat ([bol] ++ _ ++ [group 1 (cat ([] ++ _))] ++ [eol])) = _
    simp only [nil_append, append_assoc, cons_append]

/-! ## The language -/

/-- What the pattern of an item matches is what the item stands for. -/
theorem mem_lang_pattern (hi : i.IsPlain) {t : Text} (ht : (10 : Byte) ∉ t) :
    t ∈ Pattern.lang i.pattern ↔ t ∈ i.lang fun _ => true := by
  cases i with
  | one =>
    constructor
    · rintro ⟨c, -, rfl⟩
      exact ⟨c, rfl, rfl⟩
    · rintro ⟨c, -, rfl⟩
      have hne : c ≠ byte '\n' := fun h => ht (mem_singleton.mpr h.symm)
      exact ⟨c, bne_iff_ne.mpr hne, rfl⟩
  | rest =>
    refine iff_of_true (mem_lang_star_cls.mpr fun c hc => ?_) trivial
    have hne : c ≠ byte '\n' := ne_of_mem_of_not_mem hc ht
    exact bne_iff_ne.mpr hne
  | escaped c | literal c =>
    constructor
    · rintro ⟨d, hd, rfl⟩
      rw [eq_of_beq hd]
      rfl
    · intro h
      exact ⟨c, beq_self_eq_true c, h⟩
  | set negated members =>
    obtain ⟨p, hp⟩ := Option.isSome_iff_exists.mp hi.2.2.1
    constructor
    · rintro ⟨c, hc, rfl⟩
      rw [hp] at hc
      exact ⟨p, c, hp, hc, rfl⟩
    · rintro ⟨q, c, hq, hc, rfl⟩
      refine ⟨c, ?_, rfl⟩
      rw [hq]
      exact hc

theorem mem_lang_patterns (hitems : ∀ i ∈ items, i.IsPlain) {t : Text} (ht : (10 : Byte) ∉ t) :
    t ∈ Pattern.lang (cat (items.map DialItem.pattern)) ↔ t ∈ langOf (fun _ => true) items := by
  induction items generalizing t with
  | nil => rfl
  | cons i items ih =>
    have hi := hitems i mem_cons_self
    have hrest : ∀ j ∈ items, j.IsPlain := fun j hj => hitems j (mem_cons_of_mem i hj)
    show t ∈ Pattern.lang i.pattern * Pattern.lang (cat (items.map DialItem.pattern)) ↔
      t ∈ i.lang (fun _ => true) * langOf (fun _ => true) items
    rw [Language.mem_mul, Language.mem_mul]
    constructor
    · rintro ⟨u, hu, v, hv, rfl⟩
      rw [mem_append, not_or] at ht
      exact ⟨u, (mem_lang_pattern hi ht.1).mp hu, v, (ih hrest ht.2).mp hv, rfl⟩
    · rintro ⟨u, hu, v, hv, rfl⟩
      rw [mem_append, not_or] at ht
      exact ⟨u, (mem_lang_pattern hi ht.1).mpr hu, v, (ih hrest ht.2).mpr hv, rfl⟩

theorem lang_cat_append (ps qs : List Pattern) :
    Pattern.lang (cat (ps ++ qs)) = Pattern.lang (cat ps) * Pattern.lang (cat qs) := by
  induction ps with
  | nil => exact (one_mul _).symm
  | cons p ps ih =>
    show Pattern.lang p * Pattern.lang (cat (ps ++ qs)) = _
    rw [ih, ← mul_assoc]
    rfl

/-- The group adds nothing to the language. -/
theorem lang_body (d : DialPattern) : Pattern.lang (cat (d.fixed.map DialItem.pattern ++
    (if d.varying = [] then [] else [group 1 (cat (d.varying.map DialItem.pattern))]))) =
      Pattern.lang (cat (d.items.map DialItem.pattern)) := by
  conv => rhs; rw [← d.fixed_append_varying, map_append]
  rw [lang_cat_append, lang_cat_append]
  by_cases hvarying : d.varying = []
  · rw [if_pos hvarying, hvarying]
    rfl
  · rw [if_neg hvarying]
    exact congrArg _ (mul_one _)

theorem plain_pattern (i : DialItem) : Plain i.pattern := by
  cases i <;> exact trivial

theorem plain_patterns (items : List DialItem) : Plain (cat (items.map DialItem.pattern)) := by
  induction items with
  | nil => exact trivial
  | cons i items ih => exact ⟨plain_pattern i, ih⟩

theorem plain_cat_append {ps qs : List Pattern} (hps : Plain (cat ps)) (hqs : Plain (cat qs)) :
    Plain (cat (ps ++ qs)) := by
  induction ps with
  | nil => exact hqs
  | cons p ps ih => exact ⟨hps.1, ih hps.2⟩

theorem plain_body (d : DialPattern) : Plain (cat (d.fixed.map DialItem.pattern ++
    (if d.varying = [] then [] else [group 1 (cat (d.varying.map DialItem.pattern))]))) := by
  refine plain_cat_append (plain_patterns d.fixed) ?_
  split
  · exact trivial
  · exact ⟨plain_patterns d.varying, trivial⟩

/-! ## The group -/

theorem exists_classes (d : DialPattern) :
    ∃ classes : List (Byte → Bool), classes.length = d.fixed.length ∧
      d.fixed.map DialItem.pattern = classes.map cls := by
  have hfixed : ∀ i ∈ d.fixed, ∃ p, i.pattern = cls p := by
    intro i hi
    have hconstant := mem_takeWhile_imp hi
    cases i with
    | escaped c | literal c => exact ⟨_, rfl⟩
    | one | rest | set negated members => exact absurd hconstant Bool.false_ne_true
  generalize d.fixed = items at hfixed
  induction items with
  | nil => exact ⟨[], rfl, rfl⟩
  | cons i items ih =>
    obtain ⟨p, hp⟩ := hfixed i mem_cons_self
    obtain ⟨classes, hlength, hclasses⟩ := ih fun j hj => hfixed j (mem_cons_of_mem i hj)
    refine ⟨p :: classes, congrArg (· + 1) hlength, ?_⟩
    rw [map_cons, map_cons, hp, hclasses]

theorem groups_expressionPattern {d : DialPattern} (hvarying : d.varying = []) :
    groups d.expressionPattern = [] := by
  obtain ⟨classes, -, hclasses⟩ := d.exists_classes
  rw [expressionPattern, if_pos hvarying, hclasses, append_nil]
  show [] ++ groups (cat (classes.map cls ++ [eol])) = []
  clear hclasses
  induction classes with
  | nil => rfl
  | cons p classes ih => exact ih

/-- **A user pattern finds the user parts of its language**, and the group of its expression
begins at the first variable item. -/
theorem convertRegularExpression_exact (d : DialPattern) :
    ∃ expression pattern, convertRegularExpression d.text = some expression ∧
      compile expression = some pattern ∧
      ∀ user : Text, (10 : Byte) ∉ user →
        ((search pattern user).isSome = true ↔ user ∈ d.lang) ∧
        ∀ m, search pattern user = some m →
          m.group 1 = if d.varying = [] then none else some (user.drop d.fixed.length) := by
  refine ⟨d.expression, d.expressionPattern, d.convertRegularExpression_text, d.compile_expression,
    fun user huser => ⟨?_, fun m hm => ?_⟩⟩
  · rw [expressionPattern, isSome_search_iff d.plain_body huser, d.lang_body]
    exact mem_lang_patterns d.isPlain_items huser
  · by_cases hvarying : d.varying = []
    · rw [if_pos hvarying]
      have hcaps : m.caps = [] := by
        obtain ⟨before, k, -, hrun⟩ := searchFrom_append hm
        exact caps_eq_nil (groups_expressionPattern hvarying) hrun
      rw [Match.group, hcaps]
      rfl
    · obtain ⟨classes, hlength, hclasses⟩ := d.exists_classes
      rw [expressionPattern, if_neg hvarying, hclasses] at hm
      rw [if_neg hvarying, ← hlength]
      exact group_of_search huser hm

/-- Two digits and three characters: the group has the last three. -/
theorem convertRegularExpression_exact_extension :
    ∃ d : DialPattern, d.text = SipXRouter.text "19xxx" ∧
      ∃ pattern, compile (SipXRouter.text "^19(...)$") = some pattern ∧
        ∀ m, search pattern (SipXRouter.text "19234") = some m →
          m.group 1 = some (SipXRouter.text "234") := by
  let d : DialPattern :=
    { items := [.literal (byte '1'), .literal (byte '9'), .one, .one, .one]
      isPlain_items := by
        intro i hi
        simp only [mem_cons, not_mem_nil, or_false] at hi
        obtain rfl | rfl | rfl | rfl | rfl := hi
        · exact ⟨rfl, rfl⟩
        · exact ⟨rfl, rfl⟩
        all_goals exact trivial }
  obtain ⟨expression, pattern, hconvert, hcompile, hexact⟩ := convertRegularExpression_exact d
  have hexpression : convertRegularExpression d.text = some (SipXRouter.text "^19(...)$") := by
    decide
  rw [hexpression] at hconvert
  obtain rfl := Option.some.inj hconvert
  exact ⟨d, rfl, pattern, hcompile, (hexact (SipXRouter.text "19234") (by decide)).2⟩

/-- An `x` takes a letter too.  A backslash at the end is read past, an escaped plus sign becomes a
repeated backslash, a dot in a set brings a star with it, and a bar separates alternatives. -/
theorem not_exact_letter :
    (∃ expression pattern, convertRegularExpression (SipXRouter.text "x") = some expression ∧
      compile expression = some pattern ∧
      (search pattern (SipXRouter.text "a")).isSome = true ∧
      SipXRouter.text "a" ∉ langOf isDigit [.one]) ∧
    convertRegularExpression (SipXRouter.text "1\\") = none ∧
    convertRegularExpression (SipXRouter.text "\\+1") = some (SipXRouter.text "^\\\\+1$") ∧
    convertRegularExpression (SipXRouter.text "[.]") = some (SipXRouter.text "^([.*])$") ∧
    convertRegularExpression (SipXRouter.text "1|2") = some (SipXRouter.text "^1|2$") := by
  refine ⟨⟨SipXRouter.text "^(.)$", _, by decide, rfl, by decide, ?_⟩, by decide, by decide,
    by decide, by decide⟩
  intro hlang
  obtain ⟨u, ⟨c, hc, rfl⟩, v, -, huv⟩ := Language.mem_mul.mp hlang
  obtain ⟨rfl, -⟩ := List.cons.inj huv
  exact absurd hc (by decide)

end DialPattern

end SipXRouter
