import SipXRouter.Net.SipMessage
import SipXRouter.Sipdb.RegDB

/-!
# Applying a REGISTER request

`applyRegisterToDirectory` goes over the contacts of a request twice.  The first
pass checks each contact and collects a binding for it; the second writes the
bindings to the registration database, and is entered only when no check has
failed.

## Design notes

Numbers that the source keeps in `int`, `unsigned int` and `unsigned long` are
integers, wrapped where it converts them.
-/

namespace SipXRouter

open List RegDB

namespace SipRegistrarServer

/-! ## Requests -/

inductive RegisterStatus where
  | success | lessThanMinExpires | invalidRequest | forbidden | notFound | outOfOrder | query
deriving DecidableEq

/-- The least and the greatest time of a registration. -/
structure RegistrationExpiryIntervals where
  minExpiresTime : Int
  maxExpiresTime : Int
deriving DecidableEq

/-- The configuration of the server.  `md5Base64` is the URL-safe base 64 form of
the MD5 digest (`NetMd5Codec::appendBase64Sig`). -/
structure Server where
  normalExpiryIntervals : RegistrationExpiryIntervals
  natedExpiryIntervals : RegistrationExpiryIntervals
  defaultDomain : Text
  md5Base64 : Text → Text

/-- What the getters of the message deliver. -/
structure RegisterRequest where
  behindNat : Bool := false
  expiresField : Option Int := none
  callId : Text
  cseq : Nat
  contacts : List Text
  pathUris : List Text := []
deriving DecidableEq

/-- What else the function reads: the address of record, the instrument from the
authentication, the time, a random number, the time of each write, and two bytes
that the source leaves undefined (`expireVal[10]`, and the one of `toString`). -/
structure Surroundings where
  toUrl : Url
  instrument : Text := []
  timeNow : Nat
  rand : Nat := 0
  clock : Nat → Nat
  stackByte : Byte := 0
  junk : Byte := 0

/-- The interval limits that apply to a request. -/
def Server.intervals (server : Server) (req : RegisterRequest) : RegistrationExpiryIntervals :=
  if req.behindNat then server.natedExpiryIntervals else server.normalExpiryIntervals

/-- The lifetime of contacts that name none. -/
def Server.commonExpires (server : Server) (req : RegisterRequest) : Int :=
  req.expiresField.getD (server.intervals req).maxExpiresTime

/-! ## The first pass -/

/-- The C string that `strncpy` of ten bytes leaves in a buffer of twelve. -/
def expireVal (stackByte : Byte) (expireStr : Text) : Text :=
  let copied := cString (expireStr.take 10)
  if copied.length < 10 then copied else cString (copied ++ [stackByte])

/-- The lifetime a contact asks for, or nothing where its parameter is no number. -/
def requestedExpires (stackByte : Byte) (commonExpires : Int) (contact : Url) : Option Int :=
  match (contact.getFieldParameter (text "EXPIRES")).getD [] with
  | [] => some commonExpires
  | expireStr =>
    let parsed := strtol (expireVal stackByte expireStr)
    if parsed.2 = [] then some (toInt32 parsed.1) else none

/-- `InstanceUrnUuidMac`. -/
def instanceUrnUuidMacRegex : Pattern :=
  .cat [.bol, Url.litNoCase "<urn:uuid:", .times 8 (.cls isHex), .lit "-",
    .times 4 (.cls isHex), .lit "-1", .times 3 (.cls isHex), .lit "-",
    .cls (oneOf "89abAB"), .times 3 (.cls isHex), .lit "-",
    .group 1 (.times 12 (.cls isHex)), .lit ">", .eol]

/-- The instrument of a contact: the one of the authentication, or else what the
instance id holds between its brackets. -/
def contactInstrument (instrument instanceId : Text) : Text :=
  if instrument ≠ [] ∨ instanceId = [] then instrument
  else if instanceId.head? = some (byte '<') ∧ instanceId.getLast? = some (byte '>') then
    match Pattern.search instanceUrnUuidMacRegex instanceId with
    | some m => (m.group 1).getD []
    | none => instanceId.tail.dropLast
  else instrument

/-- The GRUU of an instance of the address of record. -/
def gruuValue (server : Server) (env : Surroundings) (instanceId : Text) : Text :=
  if instanceId = [] then []
  else
    let hashed := text "sipX" ++ server.defaultDomain ++ env.toUrl.toString env.junk ++ instanceId
    gruuPrefix ++ (server.md5Base64 hashed).take 11 ++ byte '@' :: server.defaultDomain ++
      text ";gr"

/-- The contact as it is stored, without its field parameters. -/
def storedContact (env : Surroundings) (contact : Text) : Text :=
  { Url.ofText contact .nameAddr with fieldParameters := [] }.toString env.junk

/-- The binding collected for a contact; its lifetime stands in the place of the
expiration time. -/
def newBinding (server : Server) (env : Surroundings) (req : RegisterRequest) (contact : Text)
    (expires : Int) : RegBinding :=
  let url := Url.ofText contact .nameAddr
  let instanceId := (url.getFieldParameter (text "+sip.instance")).getD []
  { identity := env.toUrl.getIdentity
    uri := env.toUrl.toString env.junk
    callId := req.callId
    contact := storedContact env contact
    qvalue := (url.getFieldParameter (text "Q")).getD []
    instanceId := instanceId
    gruu := gruuValue server env instanceId
    path := SipMessage.joined req.pathUris
    instrument := contactInstrument env.instrument instanceId
    cseq := req.cseq
    expirationTime := toUInt64 expires }

/-- The variables of the first pass. -/
structure Scan where
  status : RegisterStatus := .success
  registrations : List RegBinding := []
  longestRequested : Int := -1
  isUnregister : Bool := false
  removeAll : Bool := false

/-- The contact that stands for all. -/
def asterisk : Text := text "*"

/-- Whether a contact is stored: only `sip` and `sips` URIs are. -/
def isSipContact (contact : Text) : Bool :=
  contact != asterisk && (Url.ofText contact .nameAddr).scheme.isSip

/-- The lifetime granted: zero unbinds, and the maximum is not exceeded. -/
def grantedExpires (limits : RegistrationExpiryIntervals) (expires : Int) : Int :=
  if expires ≠ 0 ∧ limits.maxExpiresTime < expires then limits.maxExpiresTime else expires

/-- A SIP contact with a lifetime within the limits. -/
def collect (server : Server) (env : Surroundings) (req : RegisterRequest) (st : Scan)
    (contact : Text) (expires : Int) : Scan :=
  let granted := grantedExpires (server.intervals req) expires
  { st with
    registrations := st.registrations ++ [newBinding server env req contact granted]
    longestRequested := max st.longestRequested granted
    isUnregister := st.isUnregister || expires == 0 }

/-- One contact of the first pass. -/
def scanContact (server : Server) (env : Surroundings) (req : RegisterRequest) (st : Scan)
    (contact : Text) : Scan :=
  if contact = asterisk then { st with isUnregister := true, removeAll := true }
  else if isSipContact contact then
    match requestedExpires env.stackByte (server.commonExpires req)
        (Url.ofText contact .nameAddr) with
    | none => { st with status := .invalidRequest }
    | some expires =>
      if expires ≠ 0 ∧ expires < (server.intervals req).minExpiresTime then
        { st with status := .lessThanMinExpires }
      else collect server env req st contact expires
  else st

/-- The first pass, which ends at the first contact that fails a check. -/
def scanContacts (server : Server) (env : Surroundings) (req : RegisterRequest) :
    List Text → Scan → Scan
  | [], st => st
  | contact :: contacts, st =>
    if st.status = .success then
      scanContacts server env req contacts (scanContact server env req st contact)
    else st

/-! ## The second pass -/

/-- A write to the registration database. -/
inductive Write where
  | updateBinding (clock : Nat) (b : RegBinding)
  | expireOldBindings (identity callId : Text) (cseq : Nat)
  | expireAllBindings (identity callId : Text) (cseq : Nat)
deriving DecidableEq

def Write.apply (db : RegDB) : Write → RegDB
  | updateBinding clock b => db.updateBinding clock b
  | expireOldBindings identity callId cseq => db.expireOldBindings identity callId cseq
  | expireAllBindings identity _ _ => db.expireAllBindings identity

/-- The upper limit for the lifetimes of one request, chosen at random between
limits that depend on the longest one asked for. -/
def spreadExpirationTime (limits : RegistrationExpiryIntervals) (longestRequested : Int)
    (rand : Nat) : Nat :=
  let floor := limits.minExpiresTime * 2
  if floor < longestRequested then toUInt32 (rand % (longestRequested - floor) + floor)
  else if limits.minExpiresTime < longestRequested then
    toUInt32 (rand % (longestRequested - limits.minExpiresTime) + limits.minExpiresTime)
  else toUInt32 limits.minExpiresTime

/-- The lifetime of a collected binding made into its expiration time.  The source
computes it in an `int`. -/
def expireAt (spread timeNow : Nat) (b : RegBinding) : RegBinding :=
  let expires := toUInt32 b.expirationTime
  { b with
    expirationTime :=
      if expires = 0 then 0 else toUInt64 (toInt32 (min expires spread + timeNow)) }

/-- What a call does: its status, whether some contact unregisters, the bindings
collected, and the writes in order. -/
structure Outcome where
  status : RegisterStatus
  isUnregister : Bool := false
  registrations : List RegBinding := []
  writes : List Write := []
deriving DecidableEq

/-- Both passes over a REGISTER: the first checks all contacts, the second writes them. -/
def applyRegisterToDirectory (server : Server) (env : Surroundings) (db : RegDB)
    (req : RegisterRequest) : Outcome :=
  let identity := env.toUrl.getIdentity
  if db.isOutOfSequence identity req.callId req.cseq then { status := .outOfOrder }
  else
    let scan := scanContacts server env req req.contacts {}
    if scan.status ≠ .success then
      ⟨scan.status, scan.isUnregister, scan.registrations, []⟩
    else if req.contacts = [] then ⟨.query, scan.isUnregister, scan.registrations, []⟩
    else if scan.removeAll then
      if req.expiresField = some 0 ∧ req.contacts.length = 1 then
        ⟨.success, scan.isUnregister, scan.registrations,
          [.expireAllBindings identity req.callId req.cseq]⟩
      else ⟨.invalidRequest, scan.isUnregister, scan.registrations, []⟩
    else if scan.registrations = [] then ⟨.query, scan.isUnregister, [], []⟩
    else
      let spread := spreadExpirationTime (server.intervals req) scan.longestRequested env.rand
      let bindings := scan.registrations.map (expireAt spread env.timeNow)
      ⟨.success, scan.isUnregister, bindings,
        bindings.mapIdx (fun i b => .updateBinding (env.clock i) b) ++
          [.expireOldBindings identity req.callId req.cseq]⟩

/-- The database after a call. -/
def applyWrites (db : RegDB) (writes : List Write) : RegDB := writes.foldl Write.apply db

/-! ## All or nothing -/

section AllOrNothing

variable {server : Server} {env : Surroundings} {db : RegDB} {req : RegisterRequest}

/-- What one contact can do to the scan. -/
theorem scanContact_cases (server : Server) (env : Surroundings) (req : RegisterRequest)
    (st : Scan) (contact : Text) :
    (contact = asterisk ∧ isSipContact contact = false ∧ scanContact server env req st contact =
      { st with isUnregister := true, removeAll := true }) ∨
    (∃ status, (status = .invalidRequest ∨ status = .lessThanMinExpires) ∧
      scanContact server env req st contact = { st with status := status }) ∨
    (contact ≠ asterisk ∧ isSipContact contact = true ∧ ∃ expires : Int,
      requestedExpires env.stackByte (server.commonExpires req) (Url.ofText contact .nameAddr) =
        some expires ∧
      (expires ≠ 0 → (server.intervals req).minExpiresTime ≤ expires) ∧
      scanContact server env req st contact = collect server env req st contact expires) ∨
    (contact ≠ asterisk ∧ isSipContact contact = false ∧
      scanContact server env req st contact = st) := by
  by_cases hstar : contact = asterisk
  · refine Or.inl ⟨hstar, ?_, ?_⟩
    · simp [isSipContact, hstar]
    · rw [scanContact, if_pos hstar]
  by_cases hsip : isSipContact contact = true
  · rw [scanContact, if_neg hstar, if_pos hsip]
    split
    · exact Or.inr (Or.inl ⟨_, Or.inl rfl, rfl⟩)
    · next expires hexpires =>
        split
        · exact Or.inr (Or.inl ⟨_, Or.inr rfl, rfl⟩)
        · next hmin =>
            refine Or.inr (Or.inr (Or.inl ⟨hstar, hsip, expires, hexpires, fun hne => ?_, rfl⟩))
            by_contra hlt
            exact hmin ⟨hne, not_le.mp hlt⟩
  · refine Or.inr (Or.inr (Or.inr ⟨hstar, by simpa using hsip, ?_⟩))
    rw [scanContact, if_neg hstar, if_neg hsip]

theorem scanContacts_of_fail {contacts : List Text} {st : Scan} (h : st.status ≠ .success) :
    scanContacts server env req contacts st = st := by
  cases contacts with
  | nil => rfl
  | cons contact contacts => rw [scanContacts, if_neg h]

/-- The first pass ends well or with one of two errors. -/
theorem scanContacts_status (contacts : List Text) : ∀ st : Scan, st.status = .success →
    (scanContacts server env req contacts st).status ∈
      [RegisterStatus.success, .invalidRequest, .lessThanMinExpires] := by
  induction contacts with
  | nil => intro st hst; simp [scanContacts, hst]
  | cons contact contacts ih =>
    intro st hst
    rw [scanContacts, if_pos hst]
    obtain ⟨-, -, heq⟩ | ⟨status, hstatus, heq⟩ | ⟨-, -, expires, -, -, heq⟩ | ⟨-, -, heq⟩ :=
      scanContact_cases server env req st contact
    all_goals rw [heq]
    · exact ih _ hst
    · rcases hstatus with rfl | rfl <;> rw [scanContacts_of_fail (by simp)] <;> simp
    · exact ih _ hst
    · exact ih st hst

/-- A contact that asks to be unregistered, by itself or with all others. -/
def asksToUnregister (server : Server) (env : Surroundings) (req : RegisterRequest)
    (contact : Text) : Bool :=
  contact == asterisk || isSipContact contact &&
    requestedExpires env.stackByte (server.commonExpires req) (Url.ofText contact .nameAddr) ==
      some 0

/-- A binding is made of a contact, with a time that the first pass grants. -/
def Collected (server : Server) (env : Surroundings) (req : RegisterRequest) (contact : Text)
    (b : RegBinding) : Prop :=
  ∃ expires : Int, (expires ≠ 0 → (server.intervals req).minExpiresTime ≤ expires) ∧
    (expires = 0 → asksToUnregister server env req contact = true) ∧
    b = newBinding server env req contact (grantedExpires (server.intervals req) expires)

theorem grantedExpires_le {limits : RegistrationExpiryIntervals}
    (h : 0 ≤ limits.maxExpiresTime) (expires : Int) :
    grantedExpires limits expires ≤ limits.maxExpiresTime := by
  rw [grantedExpires]
  split <;> omega

theorem scanContacts_success (contacts : List Text) :
    ∀ st : Scan, st.status = .success →
      let scan := scanContacts server env req contacts st
      scan.status = .success →
      (∃ new, scan.registrations = st.registrations ++ new ∧
        Forall₂ (Collected server env req) (contacts.filter isSipContact) new) ∧
      (scan.isUnregister = (st.isUnregister || contacts.any (asksToUnregister server env req))) ∧
      (scan.removeAll = (st.removeAll || contacts.any (· == asterisk))) ∧
      (0 ≤ (server.intervals req).maxExpiresTime →
        st.longestRequested ≤ (server.intervals req).maxExpiresTime →
        scan.longestRequested ≤ (server.intervals req).maxExpiresTime) := by
  induction contacts with
  | nil =>
    intro st _ scan _
    exact ⟨⟨[], by simp [scan, scanContacts]⟩, by simp [scan, scanContacts]⟩
  | cons contact contacts ih =>
    intro st hst scan hsuccess
    have hscan : scan = scanContacts server env req contacts
        (scanContact server env req st contact) := by
      rw [show scan = scanContacts server env req (contact :: contacts) st from rfl,
        scanContacts, if_pos hst]
    obtain ⟨hstar, hsip, heq⟩ | ⟨status, hstatus, heq⟩ |
      ⟨hstar, hsip, expires, hexpires, hmin, heq⟩ | ⟨hstar, hsip, heq⟩ :=
      scanContact_cases server env req st contact
    all_goals rw [heq] at hscan
    · obtain ⟨⟨new, hnew, hall⟩, hunreg, hremove, hlongest⟩ :=
        ih { st with isUnregister := true, removeAll := true } hst (by rwa [← hscan])
      rw [← hscan] at hnew hunreg hremove hlongest
      have hasks : asksToUnregister server env req contact = true := by
        simp [asksToUnregister, hstar]
      refine ⟨⟨new, hnew, by simpa [hsip] using hall⟩, ?_, ?_, hlongest⟩
      · simp [hunreg, hasks]
      · simp [hremove, hstar]
    · have hne : status ≠ .success := by rcases hstatus with rfl | rfl <;> simp
      rw [scanContacts_of_fail (by simpa using hne)] at hscan
      rw [hscan] at hsuccess
      exact absurd hsuccess hne
    · obtain ⟨⟨new, hnew, hall⟩, hunreg, hremove, hlongest⟩ :=
        ih (collect server env req st contact expires) hst (by rwa [← hscan])
      rw [← hscan] at hnew hunreg hremove hlongest
      have hasks : asksToUnregister server env req contact = (expires == 0) := by
        simp [asksToUnregister, hstar, hsip, hexpires]
      refine ⟨⟨_ :: new, by rw [hnew, collect, append_assoc]; rfl, ?_⟩, ?_, ?_, ?_⟩
      · rw [filter_cons_of_pos hsip]
        exact Forall₂.cons ⟨expires, hmin, fun h0 => by simp [hasks, h0], rfl⟩ hall
      · simp [hunreg, collect, hasks, Bool.or_assoc]
      · simp [hremove, collect, beq_eq_false_iff_ne.mpr hstar]
      · intro hmax hlong
        exact hlongest hmax (max_le hlong (grantedExpires_le hmax expires))
    · obtain ⟨⟨new, hnew, hall⟩, hunreg, hremove, hlongest⟩ := ih st hst (by rwa [← hscan])
      rw [← hscan] at hnew hunreg hremove hlongest
      have hasks : asksToUnregister server env req contact = false := by
        simp [asksToUnregister, hstar, hsip]
      refine ⟨⟨new, hnew, by simpa [hsip] using hall⟩, ?_, ?_, hlongest⟩
      · simp [hunreg, hasks]
      · simp [hremove, beq_eq_false_iff_ne.mpr hstar]

/-- The ways a call can end: with an error, as a query, by removing all bindings,
or by writing the collected ones. -/
theorem applyRegisterToDirectory_cases (server : Server) (env : Surroundings) (db : RegDB)
    (req : RegisterRequest) :
    let out := applyRegisterToDirectory server env db req
    (out.status ∈ [RegisterStatus.invalidRequest, .lessThanMinExpires] ∧ out.writes = []) ∨
    (out.status = .query ∧ out.writes = [] ∧ out.registrations = [] ∧ out.isUnregister = false ∧
      req.contacts.any (asksToUnregister server env req) = false) ∨
    (out.status = .success ∧ out.isUnregister = true ∧ req.contacts = [asterisk] ∧
      out.writes = [.expireAllBindings env.toUrl.getIdentity req.callId req.cseq]) ∨
    (out.status = .success ∧ asterisk ∉ req.contacts ∧
      out.isUnregister = req.contacts.any (asksToUnregister server env req) ∧
      out.registrations ≠ [] ∧
      (∃ collected longest,
        Forall₂ (Collected server env req) (req.contacts.filter isSipContact) collected ∧
        (0 ≤ (server.intervals req).maxExpiresTime →
          longest ≤ (server.intervals req).maxExpiresTime) ∧
        out.registrations = collected.map (expireAt
          (spreadExpirationTime (server.intervals req) longest env.rand) env.timeNow)) ∧
      out.writes = out.registrations.mapIdx (fun i b => .updateBinding (env.clock i) b) ++
        [.expireOldBindings env.toUrl.getIdentity req.callId req.cseq]) := by
  intro out
  have hout : out = applyRegisterToDirectory server env db req := rfl
  simp only [applyRegisterToDirectory, isOutOfSequence, Bool.false_eq_true, if_false] at hout
  generalize hscaneq : scanContacts server env req req.contacts {} = scan at hout
  by_cases hscan : scan.status = .success
  · obtain ⟨⟨new, hnew, hall⟩, hunreg, hremoveall, hlongest⟩ :=
      scanContacts_success req.contacts {} rfl (by rw [hscaneq]; exact hscan)
    rw [hscaneq] at hnew hunreg hremoveall hlongest
    simp only [nil_append, Bool.false_or] at hnew hunreg hremoveall
    subst hnew
    -- without the asterisk and without a binding nothing is unregistered
    have hquery : asterisk ∉ req.contacts → scan.registrations = [] → scan.isUnregister = false := by
      intro hstar hempty
      rw [hempty, forall₂_nil_right_iff, filter_eq_nil_iff] at hall
      rw [hunreg, any_eq_false]
      intro contact hcontact
      have hne : contact ≠ asterisk := fun h => hstar (h ▸ hcontact)
      simp [asksToUnregister, hne, hall contact hcontact]
    rw [if_neg (not_not.mpr hscan)] at hout
    by_cases hnone : req.contacts = []
    · rw [if_pos hnone] at hout
      have hempty : scan.registrations = [] := by simpa [hnone] using hall
      have hunregister := hquery (by simp [hnone]) hempty
      exact Or.inr (Or.inl ⟨by rw [hout], by rw [hout], by rw [hout]; exact hempty,
        by rw [hout]; exact hunregister, by rw [← hunreg, hunregister]⟩)
    rw [if_neg hnone] at hout
    by_cases hremove : scan.removeAll = true
    · rw [if_pos hremove] at hout
      have hstar : asterisk ∈ req.contacts := by
        rw [hremoveall] at hremove
        simpa using hremove
      by_cases hone : req.expiresField = some 0 ∧ req.contacts.length = 1
      · rw [if_pos hone] at hout
        obtain ⟨contact, hcontact⟩ := length_eq_one_iff.mp hone.2
        have hsingle : req.contacts = [asterisk] := by
          rw [hcontact] at hstar ⊢
          rw [mem_singleton.mp hstar]
        have hunregister : scan.isUnregister = true := by
          simp [hunreg, hsingle, asksToUnregister]
        exact Or.inr (Or.inr (Or.inl (by simp [hout, hunregister, hsingle])))
      · rw [if_neg hone] at hout
        exact Or.inl (by simp [hout])
    rw [if_neg hremove] at hout
    have hstar : asterisk ∉ req.contacts := by
      intro h
      rw [hremoveall] at hremove
      exact hremove (by simpa using h)
    by_cases hempty : scan.registrations = []
    · rw [if_pos hempty] at hout
      have hunregister := hquery hstar hempty
      exact Or.inr (Or.inl ⟨by rw [hout], by rw [hout], by rw [hout], by rw [hout]; exact hunregister,
        by rw [← hunreg, hunregister]⟩)
    · rw [if_neg hempty] at hout
      refine Or.inr (Or.inr (Or.inr ⟨by rw [hout], hstar, by rw [hout]; exact hunreg, ?_, ?_,
        by rw [hout]⟩))
      · rw [hout]
        simpa using hempty
      · rw [hout]
        refine ⟨scan.registrations, scan.longestRequested, hall, fun hmax => ?_, rfl⟩
        exact hlongest hmax (le_trans (by decide) hmax)
  · rw [if_pos hscan] at hout
    have hstatus : scan.status ∈ [RegisterStatus.success, .invalidRequest, .lessThanMinExpires] := by
      rw [← hscaneq]
      exact scanContacts_status req.contacts {} rfl
    refine Or.inl ⟨?_, by rw [hout]⟩
    rw [hout]
    simpa [hscan] using hstatus

/-- A binding with the fields of the request it was made from. -/
structure BindingFor (env : Surroundings) (req : RegisterRequest) (contact : Text)
    (b : RegBinding) : Prop where
  contact : b.contact = storedContact env contact
  identity : b.identity = env.toUrl.getIdentity
  callId : b.callId = req.callId
  cseq : b.cseq = req.cseq

theorem Collected.bindingFor {contact : Text} {b : RegBinding}
    (h : Collected server env req contact b) (spread timeNow : Nat) :
    BindingFor env req contact (expireAt spread timeNow b) := by
  obtain ⟨expires, -, -, rfl⟩ := h
  exact ⟨rfl, rfl, rfl, rfl⟩

theorem exists_collected {contacts : List Text} {collected : List RegBinding}
    (hall : Forall₂ (Collected server env req) contacts collected) {b : RegBinding}
    (hb : b ∈ collected) : ∃ contact ∈ contacts, Collected server env req contact b := by
  induction hall with
  | nil => simp at hb
  | cons hc _ ih =>
    rcases mem_cons.mp hb with rfl | hb
    · exact ⟨_, by simp, hc⟩
    · obtain ⟨contact, hmem, hfor⟩ := ih hb
      exact ⟨contact, by simp [hmem], hfor⟩

/-- **All or nothing.**  A call that does not succeed has written nothing.  One that
does, for a request without the asterisk, has written a binding for each SIP
contact, in the order of the request, and then let the old bindings expire. -/
theorem register_all_or_nothing (server : Server) (env : Surroundings) (db : RegDB)
    (req : RegisterRequest) :
    let out := applyRegisterToDirectory server env db req
    (out.status ≠ .success → out.writes = []) ∧
      (out.status = .success → asterisk ∉ req.contacts →
        ∃ bindings, out.writes =
            bindings.mapIdx (fun i b => .updateBinding (env.clock i) b) ++
              [.expireOldBindings env.toUrl.getIdentity req.callId req.cseq] ∧
          Forall₂ (BindingFor env req) (req.contacts.filter isSipContact) bindings) := by
  intro out
  obtain ⟨hfail, hwrites⟩ | ⟨hquery, hwrites, -⟩ | ⟨hsuccess, -, hstar, -⟩ |
    ⟨hsuccess, -, -, -, ⟨collected, longest, hall, -, hregs⟩, hwrites⟩ :=
    applyRegisterToDirectory_cases server env db req
  · refine ⟨fun _ => hwrites, fun h => ?_⟩
    rw [show out.status = .success from h] at hfail
    simp at hfail
  · refine ⟨fun _ => hwrites, fun h => ?_⟩
    rw [hquery] at h
    cases h
  · refine ⟨fun h => absurd hsuccess h, fun _ h => ?_⟩
    simp [hstar] at h
  · refine ⟨fun h => absurd hsuccess h, fun _ _ => ⟨_, hwrites, ?_⟩⟩
    rw [hregs]
    exact forall₂_map_right_iff.mpr (hall.imp fun _ _ h => h.bindingFor _ _)

/-- A server with the default intervals. -/
def testServer : Server where
  normalExpiryIntervals := ⟨300, 7200⟩
  natedExpiryIntervals := ⟨60, 180⟩
  defaultDomain := text "example.com"
  md5Base64 := fun _ => text "0123456789abcdef"

def testSurroundings : Surroundings where
  toUrl := { userId := text "200", hostAddress := text "example.com" }
  timeNow := 1000
  clock := fun _ => 1000

theorem register_two_contacts_of_three :
    let req : RegisterRequest :=
      { callId := text "a@1", cseq := 7
        contacts := [text "<sip:200@10.0.0.1>;expires=600", text "<mailto:200@example.com>",
          text "<sips:200@10.0.0.2>"] }
    let out := applyRegisterToDirectory testServer testSurroundings { global := ⟨1, []⟩ } req
    out.status = .success ∧ asterisk ∉ req.contacts ∧
      ∃ bindings, out.writes =
          bindings.mapIdx (fun i b => .updateBinding (testSurroundings.clock i) b) ++
            [.expireOldBindings testSurroundings.toUrl.getIdentity req.callId req.cseq] ∧
        Forall₂ (BindingFor testSurroundings req) (req.contacts.filter isSipContact) bindings := by
  intro req out
  have hstatus : out.status = .success := by decide +kernel
  have hstar : asterisk ∉ req.contacts := by decide
  exact ⟨hstatus, hstar,
    (register_all_or_nothing testServer testSurroundings { global := ⟨1, []⟩ } req).2 hstatus hstar⟩

end AllOrNothing

end SipRegistrarServer

end SipXRouter
