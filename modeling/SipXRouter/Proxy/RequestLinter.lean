import SipXRouter.Net.TargetUriHeaderParams
import SipXRouter.Proxy.ProxyMessage

/-!
# Asserted identities of the own domain

`RequestLinter` removes from a request that leaves the proxy the headers `P-Asserted-Identity`
that assert an identity of the own domain.  It reads one URL in each header, the first, and keeps
or removes the header as a whole; a header may hold a list of identities.
-/

namespace SipXRouter

open List HttpMessage SipMessage SipRouter NameValueTokenizer

namespace SipMessage

/-- Take the `k`-th pair of one name out. -/
def removeAt (name : Text) : Nat → List (Text × Text) → List (Text × Text)
  | _, [] => []
  | k, nv :: rest =>
    if nv.1 = name then
      match k with
      | 0 => rest
      | k + 1 => nv :: removeAt name k rest
    else nv :: removeAt name k rest

/-- `removeHeader` with an index. -/
def removeHeaderAt (m : SipMessage) (name : Text) (index : Nat) : SipMessage :=
  { m with nameValues := removeAt name index m.nameValues }

theorem headerValues_removeHeaderAt (m : SipMessage) (name : Text) (index : Nat) :
    (m.removeHeaderAt name index).headerValues name = (m.headerValues name).eraseIdx index := by
  show ((removeAt name index m.nameValues).filter (·.1 == name)).map Prod.snd =
    ((m.nameValues.filter (·.1 == name)).map Prod.snd).eraseIdx index
  induction m.nameValues generalizing index with
  | nil => rfl
  | cons nv rest ih =>
    by_cases hname : nv.1 = name
    · have hbeq : (nv.1 == name) = true := beq_iff_eq.mpr hname
      rw [filter_cons_of_pos (by exact hbeq), map_cons]
      cases index with
      | zero => rw [removeAt, if_pos hname, eraseIdx_cons_zero]
      | succ k =>
        rw [removeAt, if_pos hname, eraseIdx_cons_succ, ← ih k]
        show ((nv :: removeAt name k rest).filter (·.1 == name)).map Prod.snd = _
        rw [filter_cons_of_pos (by exact hbeq), map_cons]
    · have hbeq : ¬ (nv.1 == name) = true := fun h => hname (beq_iff_eq.mp h)
      have hremove : removeAt name index (nv :: rest) = nv :: removeAt name index rest := by
        cases index <;> rw [removeAt, if_neg hname]
      rw [hremove, filter_cons_of_neg (by exact hbeq),
        filter_cons_of_neg (by exact hbeq), ih index]

end SipMessage

/-- The plugin, with what it needs of the router that it belongs to: the domain and the aliases of
the host.  Without a router it does nothing. -/
structure RequestLinter where
  mpSipRouter : Option (Text × (Url → Bool))

namespace RequestLinter

/-- `SipXauthIdentity::PAssertedIdentityHeaderName`, as headers are compared. -/
def pAssertedIdentity : Text := text "P-ASSERTED-IDENTITY"

/-! ## The loop -/

def isLocalDomain (router : Text × (Url → Bool)) (url : Url) : Bool :=
  caseEq router.1 url.hostAddress || router.2 url

/-- `isLocalDomain` on a text that is read as a URL. -/
def isLocalText (router : Text × (Url → Bool)) (value : Text) : Bool :=
  isLocalDomain router (Url.ofText (cString value) .nameAddr)

/-- The loop of `removeOurPAssertedIdentityHeader`.  Each round removes a header or passes one,
so that their number bounds the rounds. -/
def removeLoop (router : Text × (Url → Bool)) : (fuel index : Nat) → SipMessage → SipMessage
  | 0, _, request => request
  | fuel + 1, index, request =>
    match request.getHeaderValue index pAssertedIdentity with
    | none => request
    | some value =>
      if isLocalText router value then
        -- the headers behind it move up
        removeLoop router fuel index (request.removeHeaderAt pAssertedIdentity index)
      else removeLoop router fuel (index + 1) request

/-- Each header is removed whose identity is of a local domain. -/
def removeOurPAssertedIdentityHeader (p : RequestLinter) (request : SipMessage) : SipMessage :=
  match p.mpSipRouter with
  | none => request
  | some router =>
    removeLoop router (request.headerValues pAssertedIdentity).length 0 request

def authorizeAndModify (p : RequestLinter) (call : AuthCall) (request : SipMessage) :
    AuthResult × SipMessage :=
  (.continue,
    if call.bSpiralingRequest = false then p.removeOurPAssertedIdentityHeader request else request)

/-! ## The values of a header -/

/-- Where a scan through a list of values stands. -/
inductive Place where
  | plain | quoted | escaped | bracketed
deriving DecidableEq

/-- Where the scan stands behind a byte. -/
def Place.next : Place → Byte → Place
  | .plain, c =>
    if c = byte '"' then .quoted else if c = byte '<' then .bracketed else .plain
  | .quoted, c =>
    if c = byte '\\' then .escaped else if c = byte '"' then .plain else .quoted
  | .escaped, _ => .quoted
  | .bracketed, c => if c = byte '>' then .plain else .bracketed

/-- Cut at the commas of the plain places; `entry` is what was read of the value so far. -/
def splitFrom : Place → (entry : Text) → Text → List Text
  | _, entry, [] => [entry]
  | place, entry, c :: cs =>
    if place = .plain ∧ c = byte ',' then entry :: splitFrom .plain [] cs
    else splitFrom (place.next c) (entry ++ [c]) cs

/-- The values of a header, without blanks around them. -/
def listedValues (value : Text) : List Text :=
  ((splitFrom .plain [] value).map (trim isBlank)).filter (· ≠ [])

/-! ## What should be left -/

variable (router : Text × (Url → Bool))

/-- The asserted identities of a message, over all headers. -/
def identities (m : SipMessage) : List Text :=
  (m.headerValues pAssertedIdentity).flatMap listedValues

/-- **A stripped request**: no identity of the domain is left, and the foreign ones are, in their
order. -/
structure Stripped (request request' : SipMessage) : Prop where
  noneLocal : ∀ value ∈ identities request', isLocalText router value = false
  foreignKept :
    ((identities request).filter fun value => !isLocalText router value).Sublist
      (identities request')

/-- All values of a header are of the domain or all are foreign, as its text is when it is read
as one URL. -/
def Uniform (value : Text) : Prop :=
  ∀ v ∈ listedValues value, isLocalText router v = isLocalText router value

instance (value : Text) : Decidable (Uniform router value) :=
  inferInstanceAs (Decidable (∀ v ∈ listedValues value, _ = _))

/-- The headers that the loop comes to: those in front of an empty one. -/
def headersRead (m : SipMessage) : List Text :=
  (m.headerValues pAssertedIdentity).takeWhile (· ≠ [])

/-- The headers from an empty one on. -/
def headersUnread (m : SipMessage) : List Text :=
  (m.headerValues pAssertedIdentity).dropWhile (· ≠ [])

/-! ## What the loop leaves -/

/-- The headers that are left of a list. -/
def kept (values : List Text) : List Text :=
  ((values.takeWhile (· ≠ [])).filter fun value => !isLocalText router value) ++
    values.dropWhile (· ≠ [])

theorem kept_cons {value : Text} (hne : value ≠ []) (values : List Text) :
    kept router (value :: values) =
      if isLocalText router value then kept router values else value :: kept router values := by
  rw [kept, takeWhile_cons_of_pos (by exact decide_eq_true hne),
    dropWhile_cons_of_pos (by exact decide_eq_true hne), filter_cons]
  by_cases hlocal : isLocalText router value = true
  · rw [hlocal]
    rfl
  · rw [Bool.not_eq_true] at hlocal
    rw [hlocal]
    rfl

/-- The loop keeps what stands in front of its index, and of the rest what `kept` says. -/
theorem headerValues_removeLoop : ∀ (fuel index : Nat) (m : SipMessage),
    (m.headerValues pAssertedIdentity).length ≤ index + fuel →
    (removeLoop router fuel index m).headerValues pAssertedIdentity =
      (m.headerValues pAssertedIdentity).take index ++
        kept router ((m.headerValues pAssertedIdentity).drop index) := by
  intro fuel
  induction fuel with
  | zero =>
    intro index m hfuel
    rw [Nat.add_zero] at hfuel
    rw [removeLoop, take_of_length_le hfuel, drop_eq_nil_of_le hfuel]
    exact (append_nil _).symm
  | succ fuel ih =>
    intro index m hfuel
    by_cases hlt : index < (m.headerValues pAssertedIdentity).length
    · have hdrop := drop_eq_getElem_cons hlt
      have hget : m.getHeaderValue index pAssertedIdentity =
          if (m.headerValues pAssertedIdentity)[index] = [] then none
          else some (m.headerValues pAssertedIdentity)[index] := by
        rw [getHeaderValue, getElem?_eq_getElem hlt]
      generalize (m.headerValues pAssertedIdentity)[index] = value at hdrop hget
      rw [hdrop]
      by_cases hnil : value = []
      · -- the loop ends at an empty header
        rw [if_pos hnil] at hget
        have hstop : removeLoop router (fuel + 1) index m = m := by rw [removeLoop, hget]
        rw [hstop, hnil]
        show _ = _ ++ ([] ++ [] :: (m.headerValues pAssertedIdentity).drop (index + 1))
        rw [nil_append, ← hnil, ← hdrop, take_append_drop]
      · rw [if_neg hnil] at hget
        rw [kept_cons router hnil]
        by_cases hlocal : isLocalText router value = true
        · have hstep : removeLoop router (fuel + 1) index m =
              removeLoop router fuel index (m.removeHeaderAt pAssertedIdentity index) := by
            rw [removeLoop, hget]
            exact if_pos hlocal
          have hlength : ((m.headerValues pAssertedIdentity).eraseIdx index).length ≤
              index + fuel := by
            rw [length_eraseIdx_of_lt hlt]
            omega
          rw [hstep, ih index _ (by rw [headerValues_removeHeaderAt]; exact hlength),
            headerValues_removeHeaderAt, if_pos hlocal,
            take_eraseIdx_eq_take_of_le _ _ _ le_rfl,
            eraseIdx_eq_take_drop_succ, drop_append_of_le_length (by simp; omega),
            drop_take_self, nil_append]
        · have hstep : removeLoop router (fuel + 1) index m =
              removeLoop router fuel (index + 1) m := by
            rw [removeLoop, hget]
            exact if_neg hlocal
          have htake : (m.headerValues pAssertedIdentity).take (index + 1) =
              (m.headerValues pAssertedIdentity).take index ++ [value] := by
            rw [take_add, hdrop]
            rfl
          rw [hstep, ih (index + 1) m (by omega), if_neg hlocal, htake, append_assoc]
          rfl
    · have hle := Nat.not_lt.mp hlt
      have hget : m.getHeaderValue index pAssertedIdentity = none := by
        rw [getHeaderValue, getElem?_eq_none hle]
      have hstop : removeLoop router (fuel + 1) index m = m := by rw [removeLoop, hget]
      rw [hstop, take_of_length_le hle, drop_eq_nil_of_le hle]
      exact (append_nil _).symm

/-- **What is left of a request that leaves the proxy.** -/
theorem headerValues_authorizeAndModify {call : AuthCall} (hspiral : call.bSpiralingRequest = false)
    (request : SipMessage) :
    ((RequestLinter.mk (some router)).authorizeAndModify call request).2.headerValues
        pAssertedIdentity = (headersRead request).filter (fun value => !isLocalText router value) ++
        headersUnread request := by
  show headerValues (if call.bSpiralingRequest = false then
      removeOurPAssertedIdentityHeader ⟨some router⟩ request else request) pAssertedIdentity = _
  rw [if_pos hspiral, removeOurPAssertedIdentityHeader,
    headerValues_removeLoop router _ 0 request (Nat.le_of_eq (Nat.zero_add _).symm)]
  rfl

/-! ## Lists of lists with some of them left out -/

section Lists

variable {α β : Type} (values : α → List β) (isLocal : β → Bool) (remove : α → Bool)

/-- What is foreign stands in what is kept or in what is removed. -/
theorem length_filter_flatMap (rows : List α) :
    ((rows.flatMap values).filter fun v => !isLocal v).length =
      (((rows.filter fun row => !remove row).flatMap values).filter fun v => !isLocal v).length +
        (((rows.filter remove).flatMap values).filter fun v => !isLocal v).length := by
  have hperm := (filter_append_perm remove rows).symm
  have hflat := (hperm.flatMap_right values).filter fun v => !isLocal v
  rw [hflat.length_eq, flatMap_append, filter_append, length_append, Nat.add_comm]

theorem isLocal_of_removed {rows : List α} {rest : List β}
    (hkept : ∀ v ∈ (rows.filter fun row => !remove row).flatMap values, isLocal v = false)
    (hrest : ∀ v ∈ rest, isLocal v = false)
    (h : ((rows.flatMap values ++ rest).filter fun v => !isLocal v).Sublist
      ((rows.filter fun row => !remove row).flatMap values ++ rest)) :
    ∀ row ∈ rows, remove row = true → ∀ v ∈ values row, isLocal v = true := by
  have hself : ∀ {vs : List β}, (∀ v ∈ vs, isLocal v = false) →
      vs.filter (fun v => !isLocal v) = vs := by
    intro vs hvs
    refine filter_eq_self.mpr fun v hv => ?_
    rw [hvs v hv]
    rfl
  have hlength := h.length_le
  rw [filter_append, hself hrest, length_append, length_append,
    length_filter_flatMap values isLocal remove, hself hkept] at hlength
  have hnone : ((rows.filter remove).flatMap values).filter (fun v => !isLocal v) = [] :=
    length_eq_zero_iff.mp (by omega)
  intro row hrow hremove v hv
  have hmem : v ∈ (rows.filter remove).flatMap values :=
    mem_flatMap.mpr ⟨row, mem_filter.mpr ⟨hrow, hremove⟩, hv⟩
  simpa using filter_eq_nil_iff.mp hnone v hmem

theorem filter_flatMap_eq {rows : List α}
    (h : ∀ row ∈ rows, ∀ v ∈ values row, isLocal v = remove row) :
    (rows.flatMap values).filter (fun v => !isLocal v) =
      (rows.filter fun row => !remove row).flatMap values := by
  induction rows with
  | nil => rfl
  | cons row rows ih =>
    have hrow := h row mem_cons_self
    rw [flatMap_cons, filter_append, ih fun r hr => h r (mem_cons_of_mem _ hr),
      filter_cons]
    by_cases hremove : remove row = true
    · have hnone : (values row).filter (fun v => !isLocal v) = [] :=
        filter_eq_nil_iff.mpr fun v hv => by rw [hrow v hv, hremove]; decide
      rw [hnone, hremove]
      rfl
    · rw [Bool.not_eq_true] at hremove
      have hall : (values row).filter (fun v => !isLocal v) = values row :=
        filter_eq_self.mpr fun v hv => by rw [hrow v hv, hremove]; rfl
      rw [hall, hremove]
      rfl

end Lists

/-- **Which requests are stripped**: those with headers that are of the domain or foreign as a
whole, as far as the loop comes, and with foreign identities only behind that. -/
theorem stripped_iff {call : AuthCall} (hspiral : call.bSpiralingRequest = false)
    (request : SipMessage) :
    Stripped router request
        ((RequestLinter.mk (some router)).authorizeAndModify call request).2 ↔
      (∀ value ∈ headersRead request, Uniform router value) ∧
        ∀ value ∈ headersUnread request, ∀ v ∈ listedValues value,
          isLocalText router v = false := by
  have hleft := headerValues_authorizeAndModify router hspiral request
  have hvalues : request.headerValues pAssertedIdentity =
      headersRead request ++ headersUnread request := (takeWhile_append_dropWhile).symm
  generalize ((RequestLinter.mk (some router)).authorizeAndModify call request).2 = request'
    at hleft
  have hafter : identities request' =
      ((headersRead request).filter fun value => !isLocalText router value).flatMap listedValues ++
        (headersUnread request).flatMap listedValues := by
    rw [identities, hleft, flatMap_append]
  have hbefore : identities request = (headersRead request).flatMap listedValues ++
      (headersUnread request).flatMap listedValues := by
    rw [identities, hvalues, flatMap_append]
  constructor
  · intro h
    have hnone := h.noneLocal
    rw [hafter] at hnone
    have hkept : ∀ value ∈ headersRead request, isLocalText router value = false →
        ∀ v ∈ listedValues value, isLocalText router v = false := by
      intro value hvalue hforeign v hv
      refine hnone v (mem_append_left _ (mem_flatMap.mpr ⟨value, ?_, hv⟩))
      exact mem_filter.mpr ⟨hvalue, by rw [hforeign]; rfl⟩
    have hrest : ∀ value ∈ headersUnread request, ∀ v ∈ listedValues value,
        isLocalText router v = false := fun value hvalue v hv =>
      hnone v (mem_append_right _ (mem_flatMap.mpr ⟨value, hvalue, hv⟩))
    refine ⟨fun value hvalue v hv => ?_, hrest⟩
    by_cases hlocal : isLocalText router value = true
    · -- a foreign value of a header that is removed would be missing
      have hsublist := h.foreignKept
      rw [hbefore, hafter] at hsublist
      rw [hlocal]
      exact isLocal_of_removed listedValues (isLocalText router) (isLocalText router)
        (fun v hv => hnone v (mem_append_left _ hv))
        (fun v hv => hnone v (mem_append_right _ hv)) hsublist value hvalue hlocal v hv
    · rw [Bool.not_eq_true] at hlocal
      rw [hlocal]
      exact hkept value hvalue hlocal v hv
  · rintro ⟨huniform, hrest⟩
    have hforeign : ((identities request).filter fun v => !isLocalText router v) =
        identities request' := by
      rw [hbefore, hafter, filter_append,
        filter_flatMap_eq listedValues (isLocalText router) (isLocalText router) huniform]
      congr 1
      refine filter_eq_self.mpr fun v hv => ?_
      obtain ⟨value, hvalue, hv⟩ := mem_flatMap.mp hv
      rw [hrest value hvalue v hv]
      rfl
    refine ⟨fun v hv => ?_, ?_⟩
    · rw [← hforeign] at hv
      simpa using (mem_filter.mp hv).2
    · rw [hforeign]

/-! ### A forged identity behind a foreign one -/

/-- The proxy of `example.com`. -/
def exampleRouter : Text × (Url → Bool) := (text "example.com", fun _ => false)

def lastCall : AuthCall where
  id := []
  requestUri := { userId := text "200", hostAddress := text "example.com" }
  method := text "INVITE"
  priorResult := .continue
  bSpiralingRequest := false

/-- A call with such identities. -/
def inviteFrom (values : List String) : SipMessage where
  firstHeaderLine := text "INVITE sip:200@example.com SIP/2.0"
  nameValues := values.map fun value => (pAssertedIdentity, text value)

theorem stripped_inviteFrom :
    Stripped exampleRouter (inviteFrom ["<sip:100@example.com>", "<sip:x@example.net>"])
      ((RequestLinter.mk (some exampleRouter)).authorizeAndModify lastCall
        (inviteFrom ["<sip:100@example.com>", "<sip:x@example.net>"])).2 :=
  (stripped_iff exampleRouter rfl _).mpr ⟨by decide +kernel, by decide +kernel⟩

/-- Both in one header are kept. -/
theorem not_stripped_inviteFrom :
    ¬ Stripped exampleRouter (inviteFrom ["<sip:x@example.net>, <sip:100@example.com>"])
      ((RequestLinter.mk (some exampleRouter)).authorizeAndModify lastCall
        (inviteFrom ["<sip:x@example.net>, <sip:100@example.com>"])).2 := by
  intro h
  have hlocal := h.noneLocal (text "<sip:100@example.com>") (by decide +kernel)
  exact absurd hlocal (by decide +kernel)

end RequestLinter

end SipXRouter
