import Mathlib.Data.List.MinMax
import SipXRouter.Bytes

/-!
# The best response of a forked request

`SipTransaction::findBestResponse` walks over the client transactions below a
server transaction and picks, out of their final responses, the one that goes
back to the caller.  The walk visits the descendants of a child before the child
itself and carries one response along, which each final response met on the way
may replace.

## Design notes

The variable `useThisResp` belongs to one loop over one child list.  It is set
when a response is used and never cleared, so the model carries it from child to
child.  A walk also returns the lines it writes to the debug log, one for each
final response met, since they say which response was used in place of which.
-/

namespace SipXRouter

open List

variable {lines : List LogLine} {s : Search} {seen : List Visit} {v : Visit}

namespace SipTransaction

/-! ## Priorities -/

/-- `enum ResponsePriority`, in its order. -/
inductive ResponsePriority where
  | challenge
  | cancel
  | class3XX
  | class4XX
  | code404
  | class5XX
  | class6XX
  | lowest
  | noMatch
deriving DecidableEq

namespace ResponsePriority

/-- The value of the enumerator. -/
def rank : ResponsePriority → Nat
  | challenge => 0
  | cancel => 1
  | class3XX => 2
  | class4XX => 3
  | code404 => 4
  | class5XX => 5
  | class6XX => 6
  | lowest => 7
  | noMatch => 8

theorem rank_injective : Function.Injective rank := by
  intro a b h
  cases a <;> cases b <;> first | rfl | cases h

instance : LinearOrder ResponsePriority := LinearOrder.lift' rank rank_injective

theorem lt_iff {a b : ResponsePriority} : a < b ↔ a.rank < b.rank := Iff.rfl

theorem le_iff {a b : ResponsePriority} : a ≤ b ↔ a.rank ≤ b.rank := Iff.rfl

end ResponsePriority

open ResponsePriority

/-- The priority of a status code; the lower it is, the better. -/
def findRespPriority (responseCode : Int) : ResponsePriority :=
  if responseCode ∈ [401, 407] then challenge
  else if responseCode = 487 then cancel
  else if responseCode ∈ [300, 302, 301, 305] then class3XX
  else if responseCode ∈ [400, 403, 603, 405, 408, 412, 415, 416, 420, 421, 423, 480, 481, 482,
      483, 484, 486, 488, 489] then class4XX
  else if responseCode = 404 then code404
  else if responseCode ∈ [500, 501, 503, 505] then class5XX
  else if responseCode = 600 then class6XX
  -- not a specific code, select by category
  else if 600 ≤ responseCode then class6XX
  else if 500 ≤ responseCode then class5XX
  else if 400 ≤ responseCode then class4XX
  else if 300 ≤ responseCode then class3XX
  else noMatch

/-! ## Responses -/

/-- The transport data that `HttpMessage::resetTransport` resets. -/
structure Transport where
  timeStamp : Int := 0
  lastResendInterval : Int := 0
  timesSent : Nat := 0
  firstSent : Bool := false
  sendAddress : Text := []
  sendPort : Int := -1
deriving DecidableEq

/-- A response, as far as the walk reads or writes it.  The status code of a
message without a first line is 0. -/
structure SipResponse where
  statusCode : Int := 0
  statusText : Text := []
  via : List Text := []
  proxyAuthenticate : List Text := []
  wwwAuthenticate : List Text := []
  transport : Transport := {}
  dnsField : Option (Text × Text × Text) := none
deriving DecidableEq

/-- A response kept as `mpLastFinalResponse`. -/
structure FinalResponse extends SipResponse where
  isFinal : 200 ≤ statusCode
deriving DecidableEq

/-- The request of a server transaction: its Via values. -/
structure SipRequest where
  via : List Text
deriving DecidableEq

namespace SipResponse

/-- `removeTopVia`: the first value of the first Via header goes. -/
def removeTopVia (m : SipResponse) : SipResponse :=
  match m.via with
  | [] => m
  | field :: fields =>
    let rest := trim (· == byte ' ') ((field.dropWhile (· != byte ',')).drop 1)
    { m with via := if rest = [] then fields else rest :: fields }

def resetTransport (m : SipResponse) : SipResponse := { m with transport := {} }

def clearDNSField (m : SipResponse) : SipResponse := { m with dnsField := none }

def setResponseFirstHeaderLine (m : SipResponse) (statusCode : Int) (statusText : Text) :
    SipResponse :=
  { m with statusCode, statusText }

/-- `setResponseData` on an empty message. -/
def ofRequest (request : SipRequest) (statusCode : Int) (statusText : Text) : SipResponse :=
  { statusCode, statusText, via := request.via }

@[simp] theorem removeTopVia_statusCode (m : SipResponse) :
    m.removeTopVia.statusCode = m.statusCode := by
  unfold removeTopVia
  split <;> rfl

@[simp] theorem resetTransport_statusCode (m : SipResponse) :
    m.resetTransport.statusCode = m.statusCode := rfl

@[simp] theorem clearDNSField_statusCode (m : SipResponse) :
    m.clearDNSField.statusCode = m.statusCode := rfl

end SipResponse

/-! ## Challenges -/

/-- The characters between the attributes of `NetAttributeTokenizer`. -/
def isAttributeSeparator : Byte → Bool := oneOf ", \t\n\r"

/-- The characters around a quoted attribute value. -/
def isAttributeQuote : Byte → Bool := oneOf "\x27\x22"

/-- The rest of a quoted value and what follows the closing quote.  A quote behind
an odd number of escapes does not close. -/
def quotedValue : (escapeCount : Nat) → Text → Text × Text
  | _, [] => ([], [])
  | escapeCount, c :: cs =>
    if isAttributeQuote c ∧ escapeCount % 2 = 0 then ([], cs)
    else
      let found := quotedValue (if c = 92 then escapeCount + 1 else 0) cs
      (c :: found.1, found.2)

/-- `NetAttributeTokenizer::getNextAttribute`: name, value and the text that is left.
An empty name means that no attribute was found. -/
def getNextAttribute (s : Text) : Text × Text × Text :=
  let s := s.dropWhile isAttributeSeparator
  let isName := fun c => !isAttributeSeparator c && c != byte '='
  let name := s.takeWhile isName
  let s := s.dropWhile isName
  let isGap := fun c => isAttributeSeparator c || c == byte '='
  let valuePresent := (s.takeWhile isGap).contains (byte '=')
  match valuePresent, s.dropWhile isGap with
  | false, s => (name, [], s)
  | true, [] => (name, [], [])
  | true, c :: cs =>
    if isAttributeQuote c then
      let found := quotedValue 0 cs
      (name, found.1, found.2)
    else
      (name, (c :: cs).takeWhile fun c => !isAttributeSeparator c,
        (c :: cs).dropWhile fun c => !isAttributeSeparator c)

/-- The loop `while(tokenizer.getNextAttribute(name, value))`; each attribute takes
at least one character. -/
def attributes : (fuel : Nat) → Text → List (Text × Text)
  | 0, _ => []
  | fuel + 1, s =>
    let found := getNextAttribute s
    if found.1 = [] then [] else (found.1, found.2.1) :: attributes fuel found.2.2

/-- `HttpMessage::parseAuthenticateData`, asked for the realm.  It succeeds if there
is a realm and a nonce. -/
def parseAuthenticateRealm (authenticateField : Text) : Option Text :=
  let found := attributes authenticateField.length (getNextAttribute authenticateField).2.2
  match found.find? fun a => caseEq a.1 (text "realm") with
  | none => none
  | some realm => if found.any fun a => caseEq a.1 (text "nonce") then some realm.2 else none

/-- The fields that `getAuthenticateField` delivers, index by index. -/
def authenticateFields (fields : List Text) : List Text := fields.takeWhile (· ≠ [])

/-- The realms of the challenges of a response join those seen so far. -/
def getChallengeRealms (response : SipResponse) (realmList : List Text) : List Text :=
  (authenticateFields response.proxyAuthenticate).foldl
    (fun realms field =>
      match parseAuthenticateRealm field with
      | none => realms
      | some realm => if realm ∈ realms then realms else realms ++ [realm])
    realmList

/-- One proxy challenge of a child: it is added unless its realm has been seen or it
cannot be parsed. -/
def addProxyChallenge (s : SipResponse × List Text) (authField : Text) :
    SipResponse × List Text :=
  match parseAuthenticateRealm authField with
  | none => s
  | some realm =>
    if realm ∈ s.2 then s
    else ({ s.1 with proxyAuthenticate := s.1.proxyAuthenticate ++ [authField] },
      s.2 ++ [realm])

/-- Both the best response and the child's want a challenge: add the child's
challenges to the best response.  The realms seen come back with it. -/
def addChallenges (bestResponse childResponse : SipResponse) (proxyRealmsSeen : List Text) :
    SipResponse × List Text :=
  let realms := getChallengeRealms bestResponse proxyRealmsSeen
  let s := (authenticateFields childResponse.proxyAuthenticate).foldl addProxyChallenge
    (bestResponse, realms)
  ({ s.1 with
      wwwAuthenticate := s.1.wwwAuthenticate ++ authenticateFields childResponse.wwwAuthenticate },
    s.2)

theorem addProxyChallenge_statusCode (s : SipResponse × List Text) (authField : Text) :
    (addProxyChallenge s authField).1.statusCode = s.1.statusCode := by
  unfold addProxyChallenge
  split
  · rfl
  · split <;> rfl

@[simp] theorem addChallenges_statusCode (bestResponse childResponse : SipResponse)
    (proxyRealmsSeen : List Text) :
    (addChallenges bestResponse childResponse proxyRealmsSeen).1.statusCode =
      bestResponse.statusCode := by
  have hfold : ∀ (fields : List Text) (s : SipResponse × List Text),
      (fields.foldl addProxyChallenge s).1.statusCode = s.1.statusCode := by
    intro fields
    induction fields with
    | nil => intro s; rfl
    | cons field fields ih =>
      intro s
      rw [foldl_cons, ih, addProxyChallenge_statusCode]
  exact hfold _ _

/-! ## The walk -/

/-- The child list of a transaction: for each child its last final response, whether
it is cancelled, and its own child list. -/
inductive ChildTransactions where
  | nil
  | cons (lastFinalResponse : Option FinalResponse) (isCanceled : Bool)
      (children rest : ChildTransactions)
deriving DecidableEq

namespace ChildTransactions

def isEmpty : ChildTransactions → Bool
  | nil => true
  | cons .. => false

end ChildTransactions

/-- A child with a final response, as the walk looks at it. -/
structure Visit where
  response : FinalResponse
  isCanceled : Bool
  hasNoChildren : Bool
deriving DecidableEq

/-- The priority of the response that was looked at. -/
def Visit.respPri (v : Visit) : ResponsePriority := findRespPriority v.response.statusCode

/-- A line of the debug log: the child met, the status code of the best response
before it, and `useThisResp`. -/
structure LogLine where
  visit : Visit
  bestResponseCode : Int
  useThisResp : Bool
deriving DecidableEq

/-- The variables of one loop, with the response and the log that all loops share. -/
structure Search where
  bestResponse : SipResponse
  log : List LogLine := []
  responseFound : Bool := false
  useThisResp : Bool := false
  proxyRealmsSeen : List Text := []
deriving DecidableEq

/-- The switch over `respPri`: is the child's response put in place of one of
priority `bestPri`? -/
def selects (bestPri : ResponsePriority) (v : Visit) : Bool :=
  if bestPri = noMatch then true
  else
    match v.respPri with
    | challenge => if bestPri = challenge then false else decide (class4XX ≤ bestPri)
    | cancel => v.isCanceled && decide (class4XX ≤ bestPri)
    | class3XX => decide (class4XX ≤ bestPri) && v.hasNoChildren
    | class4XX => decide (class4XX < bestPri)
    | class5XX => decide (class5XX < bestPri)
    | class6XX => decide (class6XX < bestPri)
    | _ => true

/-- A child's response made ready to be the best one. -/
def shown (childResponse : SipResponse) : SipResponse :=
  let m :=
    if childResponse.statusCode = 503 then
      childResponse.setResponseFirstHeaderLine 500 (text "Internal Server Error")
    else childResponse
  m.removeTopVia.resetTransport.clearDNSField

/-- The best response and the realms seen once the child's challenges are added. -/
def mergedChallenges (s : Search) (v : Visit) : SipResponse × List Text :=
  if findRespPriority s.bestResponse.statusCode = challenge ∧ v.respPri = challenge then
    addChallenges s.bestResponse v.response.toSipResponse s.proxyRealmsSeen
  else (s.bestResponse, s.proxyRealmsSeen)

/-- The body of the loop from `if(childResponse)` on. -/
def visitChild (s : Search) (v : Visit) : Search :=
  -- `useThisResp` still holds what an earlier child has left there
  let useThisResp := s.useThisResp || selects (findRespPriority s.bestResponse.statusCode) v
  { bestResponse :=
      if useThisResp then shown v.response.toSipResponse else (mergedChallenges s v).1
    log := s.log ++ [⟨v, s.bestResponse.statusCode, useThisResp⟩]
    responseFound := s.responseFound || useThisResp
    useThisResp
    proxyRealmsSeen := (mergedChallenges s v).2 }

/-- The loop of `findBestChildResponse`. -/
def findBestChildResponse : ChildTransactions → Search → Search
  | .nil, s => s
  | .cons lastFinalResponse isCanceled children rest, s =>
    -- the child's descendants first, in a loop with variables of its own
    let inner := findBestChildResponse children { bestResponse := s.bestResponse, log := s.log }
    let s := { s with
      bestResponse := inner.bestResponse
      log := inner.log
      responseFound := s.responseFound || inner.responseFound }
    let s :=
      match lastFinalResponse with
      | none => s
      | some response => visitChild s ⟨response, isCanceled, children.isEmpty⟩
    findBestChildResponse rest s

/-- A transaction without a parent. -/
structure RootTransaction where
  request : Option SipRequest
  children : ChildTransactions
deriving DecidableEq

/-- The walk from the top, with an empty best response. -/
def RootTransaction.search (t : RootTransaction) : Search :=
  findBestChildResponse t.children { bestResponse := {} }

/-- `findBestResponse`: the best response, if one is found. -/
def RootTransaction.findBestResponse (t : RootTransaction) : Option SipResponse :=
  if t.search.responseFound then some t.search.bestResponse
  else t.request.map fun request => .ofRequest request 408 (text "Request timeout")

/-! ## What the walk is for -/

/-- The children with a final response, in the order in which they are met. -/
def visits : ChildTransactions → List Visit
  | .nil => []
  | .cons lastFinalResponse isCanceled children rest =>
    visits children ++
      (lastFinalResponse.map (⟨·, isCanceled, children.isEmpty⟩)).toList ++ visits rest

/-- A redirection counts only from a child that was not recursed, a 487 only from a
cancelled one. -/
def Visit.eligible (v : Visit) : Bool :=
  match v.respPri with
  | class3XX => v.hasNoChildren
  | cancel => v.isCanceled
  | _ => true

/-- The first of the eligible responses with the least priority. -/
def bestOf (seen : List Visit) : Option Visit :=
  (seen.filter Visit.eligible).argmin Visit.respPri

/-- A response that ought to replace the best one: it is eligible and better. -/
def Wanted (best : Option Visit) (v : Visit) : Prop :=
  v.eligible = true ∧ ∀ b ∈ best, v.respPri < b.respPri

instance (best : Option Visit) (v : Visit) : Decidable (Wanted best v) := by
  unfold Wanted
  infer_instance

/-- The code that goes upstream: a 503 is turned into a 500. -/
def shownCode (statusCode : Int) : Int := if statusCode = 503 then 500 else statusCode

/-- The status code of the best response while `best` is the best one met. -/
def codeOf (best : Option Visit) : Int :=
  best.elim 0 fun b => shownCode b.response.statusCode

/-- Every line of a log is right: a response is used exactly if it is eligible and
better than the best eligible one before it. -/
def UsedRightly : (seen : List Visit) → List LogLine → Prop
  | _, [] => True
  | seen, line :: lines =>
    (line.useThisResp = true ↔ Wanted (bestOf seen) line.visit) ∧
      UsedRightly (seen ++ [line.visit]) lines

/-- The decision about a response goes wrong.  `siblingUsed` says that an earlier
child of the same list has been used. -/
def Slips (siblingUsed : Bool) (best : Option Visit) (v : Visit) : Prop :=
  match best with
  -- the first response is used, whatever it is
  | none => v.eligible = false
  | some b =>
    -- used although it ought not to be
    (¬ Wanted (some b) v ∧
      (siblingUsed = true ∨ b.respPri = noMatch ∨ v.respPri = code404 ∨ v.respPri = noMatch)) ∨
    -- passed over although it is better
    (Wanted (some b) v ∧ siblingUsed = false ∧
      (v.respPri = challenge ∧ (b.respPri = cancel ∨ b.respPri = class3XX) ∨
        v.respPri = cancel ∧ b.respPri = class3XX))

/-- No decision slips on the way over a child list, where `seen` are the responses met
before and `siblingUsed` says that an earlier child of the list was used. -/
def NoSlip : ChildTransactions → (seen : List Visit) → (siblingUsed : Bool) → Prop
  | .nil, _, _ => True
  | .cons lastFinalResponse isCanceled children rest, seen, siblingUsed =>
    NoSlip children seen false ∧
    match lastFinalResponse with
    | none => NoSlip rest (seen ++ visits children) siblingUsed
    | some response =>
      let v : Visit := ⟨response, isCanceled, children.isEmpty⟩
      let best := bestOf (seen ++ visits children)
      ¬ Slips siblingUsed best v ∧
        NoSlip rest (seen ++ visits children ++ [v]) (siblingUsed || decide (Wanted best v))

/-- The walk keeps the best response from the first child to the last. -/
structure KeepsBest (t : RootTransaction) : Prop where
  usedRightly : UsedRightly [] t.search.log
  /-- Nothing is replaced by a response of the same or a worse priority. -/
  improves : ∀ line ∈ t.search.log, line.useThisResp = true →
    line.bestResponseCode = 0 ∨ line.visit.respPri < findRespPriority line.bestResponseCode
  least : (∃ v ∈ visits t.children, v.eligible = true) →
    ∃ b ∈ visits t.children, b.eligible = true ∧
      (∀ w ∈ visits t.children, w.eligible = true → b.respPri ≤ w.respPri) ∧
      t.findBestResponse.map (·.statusCode) = some (shownCode b.response.statusCode)
  timeout : (∀ v ∈ visits t.children, v.eligible = false) →
    t.findBestResponse.map (·.statusCode) = t.request.map fun _ => 408

/-- The priority of the response that goes back to the caller. -/
def RootTransaction.chosenPriority (t : RootTransaction) : Option ResponsePriority :=
  t.findBestResponse.map fun m => findRespPriority m.statusCode

/-- The same children in another order, on every level. -/
inductive Reordered : ChildTransactions → ChildTransactions → Prop where
  | nil : Reordered .nil .nil
  | cons {lastFinalResponse isCanceled children children' rest rest'} :
      Reordered children children' → Reordered rest rest' →
      Reordered (.cons lastFinalResponse isCanceled children rest)
        (.cons lastFinalResponse isCanceled children' rest')
  | swap {r c children r' c' children' rest} :
      Reordered (.cons r c children (.cons r' c' children' rest))
        (.cons r' c' children' (.cons r c children rest))
  | trans {a b c} : Reordered a b → Reordered b c → Reordered a c

/-! ## One decision -/

theorem findRespPriority_ne_lowest (responseCode : Int) : findRespPriority responseCode ≠ lowest := by
  unfold findRespPriority
  repeat' split
  all_goals decide

theorem findRespPriority_shownCode (statusCode : Int) :
    findRespPriority (shownCode statusCode) = findRespPriority statusCode := by
  unfold shownCode
  split
  · next h => subst h; rfl
  · rfl

theorem shown_statusCode (m : SipResponse) : (shown m).statusCode = shownCode m.statusCode := by
  unfold shown shownCode
  simp only [SipResponse.clearDNSField_statusCode, SipResponse.resetTransport_statusCode,
    SipResponse.removeTopVia_statusCode]
  split <;> rfl

theorem findRespPriority_codeOf_some (b : Visit) : findRespPriority (codeOf (some b)) = b.respPri :=
  findRespPriority_shownCode _

theorem decision_iff_not_slips (siblingUsed : Bool) (best : Option Visit) (v : Visit) :
    ((siblingUsed || selects (findRespPriority (codeOf best)) v) = true ↔ Wanted best v) ↔
      ¬ Slips siblingUsed best v := by
  cases best with
  | none =>
    have hpri : findRespPriority (codeOf none) = noMatch := rfl
    simp [hpri, selects, Slips, Wanted]
  | some b =>
    have hb : b.respPri ≠ lowest := findRespPriority_ne_lowest _
    have hv : v.respPri ≠ lowest := findRespPriority_ne_lowest _
    rw [findRespPriority_codeOf_some]
    simp only [selects, Slips, Wanted, Visit.eligible, Option.mem_some_iff, forall_eq']
    generalize v.respPri = p at hv ⊢
    generalize b.respPri = q at hb ⊢
    -- `lowest` is the priority of no code
    cases p <;> cases q <;> first | contradiction | skip
    all_goals cases siblingUsed <;> simp [lt_iff, rank, le_iff]

/-! ## The best response met so far -/

theorem bestOf_concat (seen : List Visit) (v : Visit) :
    bestOf (seen ++ [v]) = if Wanted (bestOf seen) v then some v else bestOf seen := by
  unfold bestOf
  rw [filter_append]
  by_cases hv : v.eligible = true
  · rw [filter_cons_of_pos hv, filter_nil, argmin_concat]
    cases argmin Visit.respPri (seen.filter Visit.eligible) with
    | none => simp [Wanted, hv]
    | some b => simp [Wanted, hv]
  · simp [Wanted, hv]

theorem bestOf_eq_some {b : Visit} (h : bestOf seen = some b) : b ∈ seen ∧ b.eligible = true ∧
    ∀ w ∈ seen, w.eligible = true → b.respPri ≤ w.respPri := by
  obtain ⟨hmem, hb⟩ := mem_filter.mp (argmin_mem h)
  refine ⟨hmem, hb, ?_⟩
  intro w hw hwe
  exact le_of_mem_argmin (mem_filter.mpr ⟨hw, hwe⟩) h

theorem bestOf_eq_none : bestOf seen = none ↔ ∀ v ∈ seen, v.eligible = false := by
  rw [bestOf, argmin_eq_none, filter_eq_nil_iff]
  simp

theorem UsedRightly.append_iff {lines' : List LogLine} : UsedRightly seen (lines ++ lines') ↔
    UsedRightly seen lines ∧ UsedRightly (seen ++ lines.map LogLine.visit) lines' := by
  induction lines generalizing seen with
  | nil => simp [UsedRightly]
  | cons line lines ih => simp [UsedRightly, ih, and_assoc]

theorem UsedRightly.any_iff (h : UsedRightly seen lines) (hseen : bestOf seen = none) :
    lines.any LogLine.useThisResp = (bestOf (seen ++ lines.map LogLine.visit)).isSome := by
  have hnone : ∀ (rest : List LogLine) (sofar : List Visit), bestOf sofar ≠ none →
      bestOf (sofar ++ rest.map LogLine.visit) ≠ none := by
    intro rest sofar hsome hcontra
    rw [bestOf_eq_none] at hcontra
    apply hsome
    rw [bestOf_eq_none]
    exact fun v hv => hcontra v (mem_append_left _ hv)
  induction lines generalizing seen with
  | nil => simp [hseen]
  | cons line lines ih =>
    obtain ⟨hline, hlines⟩ := h
    have hconcat := bestOf_concat seen line.visit
    have hsplit : seen ++ (line :: lines).map LogLine.visit =
        seen ++ [line.visit] ++ lines.map LogLine.visit := by simp
    rw [any_cons, hsplit]
    by_cases hw : Wanted (bestOf seen) line.visit
    · rw [if_pos hw] at hconcat
      have hne := hnone lines (seen ++ [line.visit]) (by simp [hconcat])
      rw [hline.mpr hw, Bool.true_or]
      exact (Option.isSome_iff_ne_none.mpr hne).symm
    · rw [if_neg hw, hseen] at hconcat
      have huse : line.useThisResp = false := by
        rw [← Bool.not_eq_true]
        exact fun huse => hw (hline.mp huse)
      rw [huse, Bool.false_or, ih hlines hconcat]

/-! ## The walk along a child list -/

theorem mergedChallenges_statusCode (s : Search) (v : Visit) :
    (mergedChallenges s v).1.statusCode = s.bestResponse.statusCode := by
  unfold mergedChallenges
  split
  · exact addChallenges_statusCode _ _ _
  · rfl

theorem visitChild_statusCode (s : Search) (v : Visit) : (visitChild s v).bestResponse.statusCode =
    if (visitChild s v).useThisResp then shownCode v.response.statusCode
    else s.bestResponse.statusCode := by
  unfold visitChild
  simp only
  split
  · exact shown_statusCode _
  · exact mergedChallenges_statusCode s v

/-- A search holds the best of the responses `seen`. -/
def Holds (s : Search) (seen : List Visit) : Prop :=
  s.bestResponse.statusCode = codeOf (bestOf seen)

theorem holds_visitChild (hs : Holds s seen)
    (hright : (visitChild s v).useThisResp = true ↔ Wanted (bestOf seen) v) :
    Holds (visitChild s v) (seen ++ [v]) := by
  unfold Holds
  rw [visitChild_statusCode, bestOf_concat]
  by_cases hw : Wanted (bestOf seen) v
  · rw [if_pos (hright.mpr hw), if_pos hw]
    rfl
  · rw [if_neg (mt hright.mp hw), if_neg hw, hs]

/-- A right decision to use a response is an improvement. -/
theorem improves_of_wanted (hw : Wanted (bestOf seen) v) :
    codeOf (bestOf seen) = 0 ∨ v.respPri < findRespPriority (codeOf (bestOf seen)) := by
  cases hbest : bestOf seen with
  | none => exact Or.inl rfl
  | some b =>
    rw [hbest] at hw
    rw [findRespPriority_codeOf_some]
    exact Or.inr (hw.2 b rfl)

/-- A stretch of the walk, from `s` to `s'`: it meets the children `met` and writes
`lines`, and its decisions are right exactly if `good` holds. -/
structure Walked (s s' : Search) (seen met : List Visit) (lines : List LogLine)
    (good : Prop) : Prop where
  log : s'.log = s.log ++ lines
  visit : lines.map LogLine.visit = met
  found : s'.responseFound = (s.responseFound || lines.any LogLine.useThisResp)
  iff_good : Holds s seen → (UsedRightly seen lines ↔ good)
  holds : Holds s seen → UsedRightly seen lines → Holds s' (seen ++ met)
  improves : Holds s seen → UsedRightly seen lines → ∀ line ∈ lines, line.useThisResp = true →
    line.bestResponseCode = 0 ∨ line.visit.respPri < findRespPriority line.bestResponseCode

theorem Walked.append {s₁ s₂ : Search} {met₁ met₂ : List Visit}
    {lines₁ lines₂ : List LogLine} {good₁ good₂ : Prop} (h₁ : Walked s s₁ seen met₁ lines₁ good₁)
    (h₂ : Walked s₁ s₂ (seen ++ met₁) met₂ lines₂ good₂) :
    Walked s s₂ seen (met₁ ++ met₂) (lines₁ ++ lines₂) (good₁ ∧ good₂) := by
  constructor
  · rw [h₂.log, h₁.log, append_assoc]
  · rw [map_append, h₁.visit, h₂.visit]
  · rw [h₂.found, h₁.found, any_append, Bool.or_assoc]
  · intro hs
    rw [UsedRightly.append_iff, h₁.visit, ← h₁.iff_good hs]
    exact and_congr_right fun hright => h₂.iff_good (h₁.holds hs hright)
  · intro hs hright
    rw [UsedRightly.append_iff, h₁.visit] at hright
    rw [← append_assoc]
    exact h₂.holds (h₁.holds hs hright.1) hright.2
  · intro hs hright line hline
    rw [UsedRightly.append_iff, h₁.visit] at hright
    rcases mem_append.mp hline with hline | hline
    · exact h₁.improves hs hright.1 line hline
    · exact h₂.improves (h₁.holds hs hright.1) hright.2 line hline

theorem Walked.congr {s' : Search} {met : List Visit}
    {good good' : Prop} (h : Walked s s' seen met lines good)
    (hgood : Holds s seen → (good ↔ good')) : Walked s s' seen met lines good' :=
  ⟨h.log, h.visit, h.found, fun hs => (h.iff_good hs).trans (hgood hs), h.holds, h.improves⟩

theorem walked_visitChild (s : Search) (seen : List Visit) (v : Visit) :
    Walked s (visitChild s v) seen [v]
      [⟨v, s.bestResponse.statusCode, (visitChild s v).useThisResp⟩]
      (¬ Slips s.useThisResp (bestOf seen) v) := by
  constructor
  · rfl
  · rfl
  · show (s.responseFound || (visitChild s v).useThisResp) = _
    simp
  · intro hs
    rw [← decision_iff_not_slips, ← hs]
    simp [UsedRightly, visitChild]
  · intro hs hright
    exact holds_visitChild hs hright.1
  · intro hs hright line hline huse
    obtain rfl := mem_singleton.mp hline
    show s.bestResponse.statusCode = 0 ∨ v.respPri < findRespPriority s.bestResponse.statusCode
    rw [show s.bestResponse.statusCode = _ from hs]
    exact improves_of_wanted (hright.1.mp huse)

theorem useThisResp_visitChild (hs : Holds s seen) (hslip : ¬ Slips s.useThisResp (bestOf seen) v) :
    (visitChild s v).useThisResp = (s.useThisResp || decide (Wanted (bestOf seen) v)) := by
  have hright := (decision_iff_not_slips _ _ _).mpr hslip
  rw [← hs] at hright
  show (s.useThisResp || selects _ v) = _
  cases hused : s.useThisResp with
  | true => rfl
  | false =>
    rw [hused, Bool.false_or] at hright
    rw [Bool.false_or, Bool.false_or, Bool.eq_iff_iff, decide_eq_true_iff]
    exact hright

/-- The recursion meets the children as `visits` lists them. -/
theorem exists_walked (cs : ChildTransactions) (s : Search) (seen : List Visit) :
    ∃ lines, Walked s (findBestChildResponse cs s) seen (visits cs) lines
      (NoSlip cs seen s.useThisResp) := by
  induction cs generalizing s seen with
  | nil =>
    refine ⟨[], ?_⟩
    constructor <;> simp [findBestChildResponse, visits, UsedRightly, NoSlip]
  | cons lastFinalResponse isCanceled children rest ihc ihr =>
    -- the descendants of the first child, seen from the loop over the list
    obtain ⟨below, hinner⟩ := ihc { bestResponse := s.bestResponse, log := s.log } seen
    set inner := findBestChildResponse children { bestResponse := s.bestResponse, log := s.log }
      with hinnerdef
    set s₁ : Search := { s with
      bestResponse := inner.bestResponse
      log := inner.log
      responseFound := s.responseFound || inner.responseFound } with hs₁
    have hbelow : Walked s s₁ seen (visits children) below (NoSlip children seen false) :=
      ⟨hinner.log, hinner.visit, by simp [hs₁, hinner.found], hinner.iff_good, hinner.holds,
        hinner.improves⟩
    cases lastFinalResponse with
    | none =>
      obtain ⟨after, hafter⟩ := ihr s₁ (seen ++ visits children)
      refine ⟨below ++ after, ?_⟩
      simpa [visits, NoSlip, findBestChildResponse] using hbelow.append hafter
    | some response =>
      set v : Visit := ⟨response, isCanceled, children.isEmpty⟩ with hv
      have hown := walked_visitChild s₁ (seen ++ visits children) v
      obtain ⟨after, hafter⟩ := ihr (visitChild s₁ v) (seen ++ visits children ++ [v])
      have hall := hbelow.append (hown.append hafter)
      have hvisits : visits (.cons (some response) isCanceled children rest) =
          visits children ++ ([v] ++ visits rest) := by
        simp [visits, hv]
      rw [hvisits]
      refine ⟨_, hall.congr fun hs => ?_⟩
      rw [NoSlip]
      refine and_congr_right fun hgood => and_congr_right fun hslip => ?_
      have hs₁ := hbelow.holds hs ((hbelow.iff_good hs).mpr hgood)
      rw [useThisResp_visitChild hs₁ hslip]

/-! ## Orders of the children -/

theorem Reordered.refl (cs : ChildTransactions) : Reordered cs cs := by
  induction cs with
  | nil => exact .nil
  | cons lastFinalResponse isCanceled children rest ihc ihr => exact .cons ihc ihr

theorem Reordered.isEmpty_eq {cs cs' : ChildTransactions} (h : Reordered cs cs') :
    cs.isEmpty = cs'.isEmpty := by
  induction h with
  | nil => rfl
  | cons => rfl
  | swap => rfl
  | trans _ _ ih ih' => exact ih.trans ih'

/-- The same responses are met in every order. -/
theorem Reordered.visits_perm {cs cs' : ChildTransactions} (h : Reordered cs cs') :
    (visits cs).Perm (visits cs') := by
  induction h with
  | nil => exact .refl _
  | cons hc _ ihc ihr =>
    rw [visits, visits, hc.isEmpty_eq]
    exact (ihc.append_right _).append ihr
  | swap =>
    rw [visits, visits, visits, visits]
    exact perm_append_comm_assoc _ _ _
  | trans _ _ ih ih' => exact ih.trans ih'

/-- The least priority does not depend on the order. -/
theorem bestOf_perm {seen' : List Visit} (h : seen.Perm seen') :
    (bestOf seen).map Visit.respPri = (bestOf seen').map Visit.respPri := by
  cases hb : bestOf seen with
  | none =>
    have hnone : bestOf seen' = none := by
      rw [bestOf_eq_none] at hb ⊢
      exact fun v hv => hb v (h.mem_iff.mpr hv)
    rw [hnone]
  | some b =>
    cases hb' : bestOf seen' with
    | none =>
      rw [bestOf_eq_none] at hb'
      obtain ⟨hmem, hbe, -⟩ := bestOf_eq_some hb
      simp [hb' b (h.mem_iff.mp hmem)] at hbe
    | some b' =>
      obtain ⟨hmem, hbe, hle⟩ := bestOf_eq_some hb
      obtain ⟨hmem', hbe', hle'⟩ := bestOf_eq_some hb'
      have heq := le_antisymm (hle b' (h.mem_iff.mpr hmem') hbe')
        (hle' b (h.mem_iff.mp hmem) hbe)
      rw [Option.map_some, Option.map_some, heq]

/-! ## The walk from the top -/

theorem findBestResponse_of_walked {t : RootTransaction} {good : Prop}
    (h : Walked { bestResponse := {} } t.search [] (visits t.children) lines good)
    (hright : UsedRightly [] lines) :
    t.findBestResponse.map (·.statusCode) =
      match bestOf (visits t.children) with
      | some b => some (shownCode b.response.statusCode)
      | none => t.request.map fun _ => 408 := by
  have hholds := h.holds rfl hright
  have hfound := h.found
  rw [Bool.false_or, hright.any_iff rfl, h.visit] at hfound
  rw [nil_append] at hholds hfound
  unfold RootTransaction.findBestResponse
  rw [hfound]
  cases hb : bestOf (visits t.children) with
  | none =>
    cases t.request <;> rfl
  | some b =>
    rw [Holds, hb] at hholds
    simpa [codeOf] using hholds

/-- The root ends up with the best response exactly when no visit slips. -/
theorem keepsBest_iff_noSlip (t : RootTransaction) : KeepsBest t ↔ NoSlip t.children [] false := by
  obtain ⟨lines, h⟩ := exists_walked t.children { bestResponse := {} } []
  have hlog : t.search.log = lines := h.log
  have hiff : UsedRightly [] t.search.log ↔ NoSlip t.children [] false := by
    rw [hlog]
    exact h.iff_good rfl
  refine ⟨fun hkeeps => hiff.mp hkeeps.usedRightly, fun hslip => ?_⟩
  have hright : UsedRightly [] lines := (h.iff_good rfl).mpr hslip
  have hanswer := findBestResponse_of_walked h hright
  refine ⟨hiff.mpr hslip, ?_, ?_, ?_⟩
  · rw [hlog]
    exact h.improves rfl hright
  · rintro ⟨v, hv, helig⟩
    cases hb : bestOf (visits t.children) with
    | none => simp [bestOf_eq_none.mp hb v hv] at helig
    | some b =>
      obtain ⟨hmem, hbe, hle⟩ := bestOf_eq_some hb
      rw [hb] at hanswer
      exact ⟨b, hmem, hbe, hle, hanswer⟩
  · intro hnone
    rw [bestOf_eq_none.mpr hnone] at hanswer
    exact hanswer

theorem KeepsBest.chosenPriority_eq {t : RootTransaction} (h : KeepsBest t) :
    t.chosenPriority =
      match (bestOf (visits t.children)).map Visit.respPri with
      | some p => some p
      | none => t.request.map fun _ => findRespPriority 408 := by
  have hcode : t.chosenPriority =
      (t.findBestResponse.map (·.statusCode)).map findRespPriority := by
    rw [Option.map_map]
    rfl
  rw [hcode]
  cases hb : bestOf (visits t.children) with
  | none =>
    rw [h.timeout (bestOf_eq_none.mp hb), Option.map_map]
    rfl
  | some b =>
    obtain ⟨hmem, hbe, hle⟩ := bestOf_eq_some hb
    obtain ⟨b', hmem', hbe', hle', hanswer⟩ := h.least ⟨b, hmem, hbe⟩
    rw [hanswer, Option.map_some, findRespPriority_shownCode]
    exact congrArg some (le_antisymm (hle' b hmem hbe) (hle b' hmem' hbe'))

/-- In every order of its children the best response of a transaction is kept, and it
has the same priority, exactly if no decision slips in any of these orders. -/
theorem findBestResponse_iff_noSlip (t : RootTransaction) :
    (∀ cs, Reordered t.children cs →
      KeepsBest { t with children := cs } ∧
        RootTransaction.chosenPriority { t with children := cs } = t.chosenPriority) ↔
      ∀ cs, Reordered t.children cs → NoSlip cs [] false := by
  constructor
  · intro h cs hcs
    exact (keepsBest_iff_noSlip _).mp (h cs hcs).1
  · intro h cs hcs
    have hcsBest : KeepsBest { t with children := cs } :=
      (keepsBest_iff_noSlip _).mpr (h cs hcs)
    have htBest : KeepsBest t := (keepsBest_iff_noSlip t).mpr (h _ (.refl _))
    refine ⟨hcsBest, ?_⟩
    rw [hcsBest.chosenPriority_eq, htBest.chosenPriority_eq, bestOf_perm hcs.visits_perm.symm]

/-- A child that answers with a status code and has no children. -/
def leaf (statusCode : Int) (isFinal : 200 ≤ statusCode) (rest : ChildTransactions) :
    ChildTransactions :=
  .cons (some { statusCode, isFinal }) false .nil rest

/-- A challenge from the first target, a busy signal from the second. -/
def challengeThenBusy : RootTransaction where
  request := some ⟨[]⟩
  children := leaf 401 (by decide) (leaf 486 (by decide) .nil)

/-- The busy signal takes the place of the challenge, which is eligible and better. -/
theorem challengeThenBusy_not_keepsBest :
    challengeThenBusy.findBestResponse.map (·.statusCode) = some 486 ∧
      ¬ KeepsBest challengeThenBusy := by
  refine ⟨by decide, fun h => ?_⟩
  have hline := h.improves
    ⟨⟨{ statusCode := 486, isFinal := by decide }, false, true⟩, 401, true⟩ (by decide) rfl
  revert hline
  decide

end SipTransaction

end SipXRouter
