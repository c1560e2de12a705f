import SipXRouter.Bytes
import SipXRouter.Loop
import Mathlib.Logic.Relation

/-!
# Following CNAME records

`SipSrvLookup::res_query_and_parse` looks for records of one type.  It follows the CNAME
records of the response at hand, and sends another query where that response neither was
asked for the name it has arrived at nor holds a record of the type.  One counter bounds
the CNAME records of all responses.

A response that was asked for the name is handed out whatever it holds: what is not in it
does not exist.

## Design notes

`res_nquery`, `res_parse` and the sorting of the answers are one parameter, which may give
any response, or none, and another one each time a name is asked for.
-/

namespace SipXRouter

/-- `s_rr`, with the text of its data. -/
structure ResRecord where
  name : Text
  rclass : Nat
  type : Nat
  string : Text
deriving DecidableEq

/-- `res_response`: the records of the two sections that are looked into. -/
structure ResResponse where
  answer : List ResRecord
  additional : List ResRecord
deriving DecidableEq

namespace ResQuery

open Loop

/-- `C_IN`. -/
def classIn : Nat := 1

/-- `T_A`. -/
def typeA : Nat := 1

/-- `T_CNAME`. -/
def typeCname : Nat := 5

/-- `look_for`: the first record of a type that a name has, the answer section first. -/
def lookFor (response : ResResponse) (name : Text) (type : Nat) : Option ResRecord :=
  let isWanted (rr : ResRecord) : Bool :=
    rr.rclass == classIn && rr.type == type && caseEq name rr.name
  (response.answer.find? isWanted).or (response.additional.find? isWanted)

/-- The variables of `res_query_and_parse`, with the names it has asked for and the number of
CNAME records it has followed. -/
structure State where
  cnameCount : Nat
  response : Option ResResponse
  name : Text
  responseForThisName : Bool
  asked : List Text
  followed : Nat
deriving DecidableEq

/-- What the search starts with. -/
def start (inName : Text) (inResponse : Option ResResponse) : State :=
  { cnameCount := 0, response := inResponse, name := inName, responseForThisName := false
    asked := [], followed := 0 }

variable (query : Nat → Text → Option ResResponse) (cnameLimit type : Nat)

/-- The part of the outer loop behind the inner one: the search ends, or another query is
sent.  It also ends where the query gives no response. -/
def lookUp (s : State) : State ⊕ State :=
  if s.responseForThisName ∨ (s.response.bind (lookFor · s.name type)).isSome then .inr s
  else
    let asked := s.asked ++ [s.name]
    match query s.asked.length s.name with
    | none => .inr { s with response := none, responseForThisName := true, asked := asked }
    | some response =>
      .inl { s with response := some response, responseForThisName := true, asked := asked }

/-- One turn: of the inner loop where there is a CNAME record for the name and the limit is
not exceeded, of the outer one otherwise. -/
def turn (s : State) : State ⊕ State :=
  match s.response.bind (lookFor · s.name typeCname) with
  | none => lookUp query type s
  | some rr =>
    if cnameLimit < s.cnameCount + 1 then
      lookUp query type { s with cnameCount := s.cnameCount + 1 }
    else
      .inl { s with
        cnameCount := s.cnameCount + 1, name := rr.string, responseForThisName := false
        followed := s.followed + 1 }

/-- `res_query_and_parse`: the search ends with these values of its variables, of which it
hands out `name` and `response`. -/
def ResQueryAndParse (inName : Text) (inResponse : Option ResResponse) (out : State) : Prop :=
  Returns (turn query cnameLimit type) (start inName inResponse) out

/-! ## What holds in every turn -/

variable {query cnameLimit type} {inName : Text} {inResponse : Option ResResponse} {s s' : State}

/-- A response is the one handed in or was given to a query. -/
def Seen (query : Nat → Text → Option ResResponse) (inResponse : Option ResResponse)
    (asked : List Text) (response : ResResponse) : Prop :=
  inResponse = some response ∨
    ∃ k name, asked[k]? = some name ∧ query k name = some response

/-- A CNAME record for one name, in a response that was seen, with the other name in it. -/
def CnameStep (query : Nat → Text → Option ResResponse) (inResponse : Option ResResponse)
    (asked : List Text) (name name' : Text) : Prop :=
  ∃ response rr, Seen query inResponse asked response ∧
    lookFor response name typeCname = some rr ∧ rr.string = name'

/-- The response to the last query, which was for the name at hand. -/
def Answered (query : Nat → Text → Option ResResponse) (s : State) : Prop :=
  ∃ asked, s.asked = asked ++ [s.name] ∧ s.response = query asked.length s.name

/-- What holds in every turn of the search. -/
structure State.Inv (query : Nat → Text → Option ResResponse) (cnameLimit : Nat) (inName : Text)
    (inResponse : Option ResResponse) (s : State) : Prop where
  followed_le_count : s.followed ≤ s.cnameCount
  followed_le_limit : s.followed ≤ cnameLimit
  asked_le : s.asked.length ≤ s.followed + s.responseForThisName.toNat
  seen : ∀ response, s.response = some response → Seen query inResponse s.asked response
  reached : Relation.ReflTransGen (CnameStep query inResponse s.asked) inName s.name
  answered : s.responseForThisName = true → Answered query s

theorem Seen.append {asked : List Text} {response : ResResponse}
    (h : Seen query inResponse asked response) (more : List Text) :
    Seen query inResponse (asked ++ more) response := by
  rcases h with h | ⟨k, name, hk, hquery⟩
  · exact Or.inl h
  · obtain ⟨hlt, -⟩ := List.getElem?_eq_some_iff.mp hk
    exact Or.inr ⟨k, name, (List.getElem?_append_left hlt).trans hk, hquery⟩

theorem CnameStep.append {asked : List Text} {name name' : Text}
    (h : CnameStep query inResponse asked name name') (more : List Text) :
    CnameStep query inResponse (asked ++ more) name name' := by
  obtain ⟨response, rr, hseen, hrest⟩ := h
  exact ⟨response, rr, hseen.append more, hrest⟩

theorem inv_start : (start inName inResponse).Inv query cnameLimit inName inResponse where
  followed_le_count := Nat.le_refl 0
  followed_le_limit := Nat.zero_le _
  asked_le := Nat.le_refl 0
  seen _ h := Or.inl h
  reached := .refl
  answered h := absurd h Bool.false_ne_true

theorem State.Inv.count (hinv : s.Inv query cnameLimit inName inResponse) :
    State.Inv query cnameLimit inName inResponse { s with cnameCount := s.cnameCount + 1 } :=
  { hinv with followed_le_count := Nat.le_succ_of_le hinv.followed_le_count }

theorem State.Inv.follow {response : ResResponse} {rr : ResRecord}
    (hinv : s.Inv query cnameLimit inName inResponse) (hresponse : s.response = some response)
    (hrr : lookFor response s.name typeCname = some rr) (hlimit : s.cnameCount + 1 ≤ cnameLimit) :
    State.Inv query cnameLimit inName inResponse
      { s with
        cnameCount := s.cnameCount + 1, name := rr.string, responseForThisName := false
        followed := s.followed + 1 } where
  followed_le_count := Nat.succ_le_succ hinv.followed_le_count
  followed_le_limit := (Nat.succ_le_succ hinv.followed_le_count).trans hlimit
  asked_le := hinv.asked_le.trans (Nat.add_le_add_left (Bool.toNat_le _) _)
  seen := hinv.seen
  reached := hinv.reached.tail ⟨response, rr, hinv.seen _ hresponse, hrr, rfl⟩
  answered h := absurd h Bool.false_ne_true

theorem State.Inv.ask (hinv : s.Inv query cnameLimit inName inResponse)
    (hflag : s.responseForThisName = false) :
    State.Inv query cnameLimit inName inResponse
      { s with
        response := query s.asked.length s.name, responseForThisName := true
        asked := s.asked ++ [s.name] } where
  followed_le_count := hinv.followed_le_count
  followed_le_limit := hinv.followed_le_limit
  asked_le := by
    have hle := hinv.asked_le
    rw [hflag] at hle
    show (s.asked ++ [s.name]).length ≤ s.followed + 1
    rw [List.length_append]
    exact Nat.add_le_add_right hle 1
  seen response h := Or.inr ⟨s.asked.length, s.name, List.getElem?_concat_length, h⟩
  reached := Relation.ReflTransGen.mono (fun _ _ h => CnameStep.append h _) _ _ hinv.reached
  answered _ := ⟨s.asked, rfl, rfl⟩

/-! ## One turn -/

/-- What is left to do: the CNAME records that may still be followed, and a query for the name
at hand. -/
def State.left (cnameLimit : Nat) (s : State) : Nat :=
  2 * (cnameLimit - s.cnameCount) + (!s.responseForThisName).toNat

/-- What the search hands out: no response, or one that was asked for the name, or one that
holds a record. -/
def Final (query : Nat → Text → Option ResResponse) (type : Nat) (out : State) : Prop :=
  ∀ response, out.response = some response →
    (lookFor response out.name type).isSome ∨ Answered query out

/-- A look-up that goes on keeps the invariant and uses up an alias. -/
theorem lookUp_next (hinv : s.Inv query cnameLimit inName inResponse)
    (h : lookUp query type s = .inl s') :
    s'.Inv query cnameLimit inName inResponse ∧ s'.left cnameLimit < s.left cnameLimit := by
  unfold lookUp at h
  split at h
  · exact absurd h Sum.inr_ne_inl
  · next hgo =>
      have hflag : s.responseForThisName = false := Bool.eq_false_iff.mpr fun h => hgo (Or.inl h)
      cases hquery : query s.asked.length s.name with
      | none =>
        rw [hquery] at h
        exact absurd h Sum.inr_ne_inl
      | some response =>
        rw [hquery] at h
        have hask := hinv.ask hflag
        rw [hquery] at hask
        obtain rfl := Sum.inl.inj h
        refine ⟨hask, ?_⟩
        show 2 * (cnameLimit - s.cnameCount) + 0 < 2 * (cnameLimit - s.cnameCount) +
          (!s.responseForThisName).toNat
        rw [hflag]
        exact Nat.lt_succ_self _

/-- A look-up that ends has a final answer. -/
theorem lookUp_done (hinv : s.Inv query cnameLimit inName inResponse)
    (h : lookUp query type s = .inr s') :
    s'.Inv query cnameLimit inName inResponse ∧ Final query type s' := by
  unfold lookUp at h
  split at h
  · next hstop =>
      obtain rfl := Sum.inr.inj h
      refine ⟨hinv, fun response hresponse => ?_⟩
      rcases hstop with hflag | hfound
      · exact Or.inr (hinv.answered hflag)
      · rw [hresponse] at hfound
        exact Or.inl hfound
  · next hgo =>
      have hflag : s.responseForThisName = false := Bool.eq_false_iff.mpr fun h => hgo (Or.inl h)
      cases hquery : query s.asked.length s.name with
      | none =>
        rw [hquery] at h
        have hask := hinv.ask hflag
        rw [hquery] at hask
        obtain rfl := Sum.inr.inj h
        exact ⟨hask, fun response hresponse => absurd hresponse (by simp)⟩
      | some response =>
        rw [hquery] at h
        exact absurd h Sum.inl_ne_inr

theorem left_count_le : State.left cnameLimit { s with cnameCount := s.cnameCount + 1 } ≤
    s.left cnameLimit :=
  Nat.add_le_add_right (Nat.mul_le_mul_left 2 (Nat.sub_le_sub_left (Nat.le_succ _) _)) _

theorem turn_next (hinv : s.Inv query cnameLimit inName inResponse)
    (h : turn query cnameLimit type s = .inl s') :
    s'.Inv query cnameLimit inName inResponse ∧ s'.left cnameLimit < s.left cnameLimit := by
  unfold turn at h
  cases hrr : s.response.bind (lookFor · s.name typeCname) with
  | none =>
    rw [hrr] at h
    exact lookUp_next hinv h
  | some rr =>
    rw [hrr] at h
    dsimp only at h
    split at h
    · obtain ⟨hinv', hlt⟩ := lookUp_next hinv.count h
      exact ⟨hinv', hlt.trans_le left_count_le⟩
    · next hlimit =>
        obtain ⟨response, hresponse, hrr⟩ := Option.bind_eq_some_iff.mp hrr
        have hlimit := Nat.not_lt.mp hlimit
        obtain rfl := Sum.inl.inj h
        refine ⟨hinv.follow hresponse hrr hlimit, ?_⟩
        show 2 * (cnameLimit - (s.cnameCount + 1)) + 1 <
          2 * (cnameLimit - s.cnameCount) + (!s.responseForThisName).toNat
        omega

theorem turn_done (hinv : s.Inv query cnameLimit inName inResponse)
    (h : turn query cnameLimit type s = .inr s') :
    s'.Inv query cnameLimit inName inResponse ∧ Final query type s' := by
  unfold turn at h
  cases hrr : s.response.bind (lookFor · s.name typeCname) with
  | none =>
    rw [hrr] at h
    exact lookUp_done hinv h
  | some rr =>
    rw [hrr] at h
    dsimp only at h
    split at h
    · exact lookUp_done hinv.count h
    · exact absurd h Sum.inl_ne_inr

/-! ## The search -/

/-- **The search ends, within the limit.**  Whatever the responses are, it sends at most one
query more than the limit and follows no more CNAME records than that.  The name it hands out
is reached through CNAME records, and a response it hands out holds a record of the type for
that name or was asked for that very name. -/
theorem exists_returns_resQueryAndParse (query : Nat → Text → Option ResResponse)
    (cnameLimit type : Nat) (inName : Text) (inResponse : Option ResResponse) :
    ∃ out, ResQueryAndParse query cnameLimit type inName inResponse out ∧
      out.asked.length ≤ cnameLimit + 1 ∧ out.followed ≤ cnameLimit ∧
      Relation.ReflTransGen (CnameStep query inResponse out.asked) inName out.name ∧
      Final query type out := by
  obtain ⟨out, hout, hinv, hfinal⟩ := Loop.exists_returns (State.left cnameLimit)
    (inv_start : (start inName inResponse).Inv query cnameLimit inName inResponse)
    (fun _ _ => turn_next) (fun _ _ => turn_done)
  refine ⟨out, hout, ?_, hinv.followed_le_limit, hinv.reached, hfinal⟩
  calc out.asked.length
      ≤ out.followed + out.responseForThisName.toNat := hinv.asked_le
    _ ≤ cnameLimit + 1 := Nat.add_le_add hinv.followed_le_limit (Bool.toNat_le _)

/-- A name without records: the response to the query for it is handed out, though no record
of the type is in it. -/
theorem not_holds_record : ¬ ∀ query cnameLimit type inName inResponse out,
    ResQueryAndParse query cnameLimit type inName inResponse out →
      ∀ response, out.response = some response →
        (lookFor response out.name type).isSome := by
  intro hclaim
  have hout : ResQueryAndParse (fun _ _ => some ⟨[], []⟩) 5 typeA (text "a.example") none
      { cnameCount := 0, response := some ⟨[], []⟩, name := text "a.example"
        responseForThisName := true, asked := [text "a.example"], followed := 0 } :=
    returns_of_run (rfl : run _ 2 _ = _)
  have hrecord := hclaim _ _ _ _ _ _ hout _ rfl
  exact Bool.false_ne_true hrecord

end ResQuery

end SipXRouter
