import SipXRouter.Registry.RegisterSequence

/-!
# The answer to a REGISTER request

After a request has been applied, `handleRegister` looks up the contacts of the
address of record and lists them in the answer.  The list passes through one of
two functions: `mergeNewBindings` when the request only adds and refreshes, and
`validateUnregisteredBindings` when some contact asks to be unregistered.
-/

namespace SipXRouter

open List

variable {b : RegBinding} {contact : Text} {longest : Int} {timeNow : Nat}

namespace SipRegistrarServer

open RegDB Newest

/-! ## The list of bindings -/

/-- Whether one text occurs in another (`std::string::find`). -/
def occursIn (sub s : Text) : Bool := s.tails.any sub.isPrefixOf

/-- `validateUnregisteredBindings`.  The comment at the return says that all is
unregistered, but the test returns when the first contact is not the asterisk. -/
def validateUnregisteredBindings (contacts : List Text) (unexpired : List RegBinding) :
    List RegBinding :=
  let first := contacts.head?.getD []
  if unexpired = [] ∨ first ≠ asterisk then []
  else unexpired.filter fun b => !occursIn first b.contact

/-- `mergeNewBindings`: new bindings that the lookup did not deliver are added. -/
def mergeNewBindings (unexpired new : List RegBinding) : List RegBinding :=
  unexpired ++ new.filter fun b =>
    !unexpired.any fun d => b.contact == d.contact && b.callId == d.callId

/-! ## A binding in the answer -/

/-- The remaining lifetime, as the source computes it in an `unsigned int` and shows
it as an `int`. -/
def remainingLifetime (timeNow : Nat) (b : RegBinding) : Int :=
  toInt32 (toUInt32 ((toUInt32 b.expirationTime : Int) - timeNow))

/-- `RegQValue`. -/
def regQValueRegex : Pattern :=
  .cat [.bol,
    .alt (.seq (.lit "0") (.opt (.seq (.lit ".") (.upTo 3 (.cls isDigit)))))
      (.seq (.lit "1") (.opt (.seq (.lit ".") (.upTo 3 (.lit "0"))))),
    .eol]

/-- The q value, where it is a valid one. -/
def addQvalue (b : RegBinding) (u : Url) : Url :=
  if b.qvalue ≠ [] ∧ (Pattern.search regQValueRegex b.qvalue).isSome then
    u.setFieldParameter (text "Q") b.qvalue
  else u

/-- Whether GRUUs are still shown once this binding is: a WebRTC contact with an
instance id turns them off. -/
def showsGruu (gruu : Bool) (b : RegBinding) (u : Url) : Bool :=
  let transport := (u.getUrlParameter (text "transport")).getD []
  gruu && (b.instanceId == [] || !(caseEq transport (text "ws") || caseEq transport (text "wss")))

/-- The instance of a binding and its GRUUs as field parameters. -/
def addInstance (gruu : Bool) (b : RegBinding) (u : Url) : Url :=
  if b.instanceId = [] then u
  else
    let u := u.setFieldParameter (text "+sip.instance") b.instanceId
    if gruu ∧ b.gruu ≠ [] then
      (u.setFieldParameter (text "pub-gruu") (text "sip:" ++ b.gruu)).setFieldParameter (text "gruu")
        (text "sip:" ++ b.gruu)
    else u

/-- Undo what the proxy did to a contact behind a NAT. -/
def undoNat (u : Url) : Url :=
  match u.getUrlParameter Url.privateContactParam with
  | some privateContact =>
    let priv := Url.fromString privateContact .nameAddr
    { u with hostAddress := priv.hostAddress, hostPort := priv.hostPort }.removeUrlParameter
      Url.privateContactParam
  | none => u.removeUrlParameter Url.noNatParam

/-- A binding as the answer shows it. -/
def contactUri (timeNow : Nat) (gruu : Bool) (b : RegBinding) : Url :=
  let stored := Url.ofText b.contact .nameAddr
  let lifetime := intText (remainingLifetime timeNow b)
  undoNat (addInstance (showsGruu gruu b stored) b
    (addQvalue b (stored.setFieldParameter (text "EXPIRES") lifetime)))

/-- The loop that writes the Contact fields. -/
def contactTexts (junk : Byte) (timeNow : Nat) : Bool → List RegBinding → List Text
  | _, [] => []
  | gruu, b :: bs =>
    (contactUri timeNow gruu b).toString junk ::
      contactTexts junk timeNow (showsGruu gruu b (Url.ofText b.contact .nameAddr)) bs

/-! ## The answer -/

/-- The settings of the answer to a REGISTER. -/
structure AnswerSettings where
  sendAllContactsInResponse : Bool := false
  sendExpiresInResponse : Bool := true
  additionalContact : Text := []

/-- The parts of the answer. -/
structure Response where
  code : Nat
  reason : Text
  contacts : List Text := []
  expires : Option Text := none
  minExpires : Option Text := none
deriving DecidableEq

/-- Whether a binding is shown: all for a query or when set so, and else those with
the Call-Id of the request. -/
def isShown (settings : AnswerSettings) (status : RegisterStatus) (callId : Text)
    (b : RegBinding) : Bool :=
  settings.sendAllContactsInResponse || status == .query || callId == b.callId

/-- The common lifetime of the bindings shown, if they have one. -/
def commonLifetime (timeNow : Nat) : List RegBinding → Option Int
  | [] => none
  | b :: bs =>
    if bs.all fun d => remainingLifetime timeNow d == remainingLifetime timeNow b then
      some (remainingLifetime timeNow b)
    else none

/-- The answer to a REGISTER that was accepted. -/
def okAnswer (settings : AnswerSettings) (env : Surroundings) (shown : List RegBinding) : Response where
  code := 200
  reason := text "OK"
  contacts := contactTexts env.junk env.timeNow true shown ++
    (if settings.additionalContact = [] then [] else [settings.additionalContact])
  expires :=
    if settings.sendExpiresInResponse then (commonLifetime env.timeNow shown).map intText else none

/-- The answer of `handleRegister` to a request with that outcome, when the lookup of
the contacts delivers `unexpired`. -/
def answer (settings : AnswerSettings) (server : Server) (env : Surroundings)
    (req : RegisterRequest) (out : Outcome) (unexpired : List RegBinding) : Response :=
  match out.status with
  | .success | .query =>
    let registrations :=
      if out.isUnregister then validateUnregisteredBindings req.contacts unexpired
      else mergeNewBindings unexpired out.registrations
    if out.isUnregister = false ∧ out.status = .success ∧ registrations = [] then
      { code := 500, reason := text "Unable To Retrieve Contacts From RegDB" }
    else okAnswer settings env (registrations.filter (isShown settings out.status req.callId))
  | .outOfOrder => { code := 500, reason := text "Out Of Order" }
  | .lessThanMinExpires =>
    { code := 423, reason := text "Registration Too Brief"
      minExpires := some (intText (server.intervals req).minExpiresTime) }
  | .invalidRequest => { code := 400, reason := text "Bad Request" }
  | .forbidden => { code := 403, reason := text "Forbidden" }
  | .notFound => { code := 404, reason := text "Not Found" }

/-- A Contact field that shows a binding with its remaining lifetime. -/
def Shows (env : Surroundings) (b : RegBinding) (field : Text) : Prop :=
  ∃ gruu, field = (contactUri env.timeNow gruu b).toString env.junk ∧
    (contactUri env.timeNow gruu b).getFieldParameter (text "EXPIRES") =
      some (intText ((b.expirationTime : Int) - env.timeNow))

/-! ## What the answer shows -/

theorem remainingLifetime_eq (hpast : timeNow < b.expirationTime)
    (hbound : b.expirationTime < timeNow + 2 ^ 31) :
    remainingLifetime timeNow b = (b.expirationTime : Int) - timeNow := by
  simp only [remainingLifetime, toInt32, toUInt32]
  omega

@[simp] theorem getFieldParameter_undoNat (u : Url) (name : Text) :
    (undoNat u).getFieldParameter name = u.getFieldParameter name := by
  unfold undoNat
  split <;> simp only [Url.getFieldParameter, Url.removeUrlParameter]

theorem getFieldParameter_contactUri (timeNow : Nat) (gruu : Bool) (b : RegBinding) :
    (contactUri timeNow gruu b).getFieldParameter (text "EXPIRES") =
      some (intText (remainingLifetime timeNow b)) := by
  have hq : caseEq (text "Q") (text "EXPIRES") = false := by decide
  have hinstance : caseEq (text "+sip.instance") (text "EXPIRES") = false := by decide
  have hpub : caseEq (text "pub-gruu") (text "EXPIRES") = false := by decide
  have hgruu : caseEq (text "gruu") (text "EXPIRES") = false := by decide
  have haddQ : ∀ u : Url, (addQvalue b u).getFieldParameter (text "EXPIRES") =
      u.getFieldParameter (text "EXPIRES") := by
    intro u
    unfold addQvalue
    split
    · simp [Url.getFieldParameter_setFieldParameter, hq]
    · rfl
  have haddInstance : ∀ (g : Bool) (u : Url),
      (addInstance g b u).getFieldParameter (text "EXPIRES") =
        u.getFieldParameter (text "EXPIRES") := by
    intro g u
    unfold addInstance
    split
    · rfl
    · split <;> simp [Url.getFieldParameter_setFieldParameter, hinstance, hpub, hgruu]
  rw [contactUri, getFieldParameter_undoNat, haddInstance, haddQ,
    Url.getFieldParameter_setFieldParameter, caseEq_refl, if_pos rfl]

theorem forall₂_contactTexts {env : Surroundings} {bindings : List RegBinding}
    (hlife : ∀ b ∈ bindings, env.timeNow < b.expirationTime ∧
      b.expirationTime < env.timeNow + 2 ^ 31) (gruu : Bool) :
    Forall₂ (Shows env) bindings (contactTexts env.junk env.timeNow gruu bindings) := by
  induction bindings generalizing gruu with
  | nil => exact Forall₂.nil
  | cons b bindings ih =>
    obtain ⟨hpast, hbound⟩ := hlife b (by simp)
    refine Forall₂.cons ⟨gruu, rfl, ?_⟩ (ih (fun d hd => hlife d (by simp [hd])) _)
    rw [getFieldParameter_contactUri, remainingLifetime_eq hpast hbound]

/-! ## New bindings are found -/

section Found

variable {server : Server} {env : Surroundings} {req : RegisterRequest}

/-- The limits of the server make sense, and no expiration time leaves an `int`. -/
structure SaneLimits (server : Server) (env : Surroundings) (req : RegisterRequest) : Prop where
  min_pos : 0 < (server.intervals req).minExpiresTime
  min_le_max : (server.intervals req).minExpiresTime ≤ (server.intervals req).maxExpiresTime
  in_range : (env.timeNow : Int) + (server.intervals req).maxExpiresTime < 2 ^ 31

theorem minExpiresTime_le_spread {limits : RegistrationExpiryIntervals}
    (hmin : 0 < limits.minExpiresTime) (hlimit : limits.minExpiresTime < 2 ^ 31)
    (hlongest : longest < 2 ^ 31) (rand : Nat) :
    limits.minExpiresTime ≤ spreadExpirationTime limits longest rand := by
  simp only [spreadExpirationTime, toUInt32]
  split
  · next h =>
      have h0 := Int.emod_nonneg (rand : Int) (show longest - limits.minExpiresTime * 2 ≠ 0 by omega)
      have h1 := Int.emod_lt_of_pos (rand : Int)
        (show 0 < longest - limits.minExpiresTime * 2 by omega)
      omega
  · split
    · next h =>
        have h0 := Int.emod_nonneg (rand : Int) (show longest - limits.minExpiresTime ≠ 0 by omega)
        have h1 := Int.emod_lt_of_pos (rand : Int) (show 0 < longest - limits.minExpiresTime by omega)
        omega
    · omega

theorem toUInt32_toUInt64 {i : Int} (hpos : 0 < i) (hlt : i < 2 ^ 31) :
    toUInt32 (toUInt64 i) = i.toNat := by
  simp only [toUInt32, toUInt64]
  omega

theorem toUInt64_toInt32 {n : Nat} (hlt : n < 2 ^ 31) : toUInt64 (toInt32 n) = n := by
  simp only [toUInt64, toInt32]
  omega

/-- The time a lifetime is made into, as long as it fits an `int`. -/
theorem expireAt_expirationTime {granted : Int} {spread : Nat}
    (hb : b.expirationTime = toUInt64 granted) (hpos : 0 < granted)
    (hrange : (timeNow : Int) + granted < 2 ^ 31) :
    (expireAt spread timeNow b).expirationTime = min granted.toNat spread + timeNow := by
  have hexact : toUInt32 b.expirationTime = granted.toNat := by
    rw [hb, toUInt32_toUInt64 hpos (by omega)]
  have hsum : min granted.toNat spread + timeNow < 2 ^ 31 := by
    have := Nat.min_le_left granted.toNat spread
    omega
  rw [expireAt, hexact]
  simp only
  rw [if_neg (by omega), ← Nat.cast_add, toUInt64_toInt32 hsum]

theorem Collected.expireAt_future
    (h : Collected server env req contact b) (hsane : SaneLimits server env req)
    (hasks : asksToUnregister server env req contact = false)
    (hlongest : longest ≤ (server.intervals req).maxExpiresTime) :
    env.timeNow < (expireAt (spreadExpirationTime (server.intervals req) longest env.rand)
      env.timeNow b).expirationTime := by
  obtain ⟨hmin, hle, hrange⟩ := hsane
  obtain ⟨expires, hlower, hzero, rfl⟩ := h
  have hne : expires ≠ 0 := fun h0 => by
    have := hzero h0
    rw [hasks] at this
    cases this
  have hspread : 0 < spreadExpirationTime (server.intervals req) longest env.rand := by
    have := minExpiresTime_le_spread hmin (by omega) (by omega : longest < 2 ^ 31) env.rand
    omega
  have hlow := hlower hne
  have hgranted : 0 < grantedExpires (server.intervals req) expires ∧
      grantedExpires (server.intervals req) expires ≤ (server.intervals req).maxExpiresTime := by
    rw [grantedExpires]
    split <;> omega
  rw [expireAt_expirationTime rfl hgranted.1 (by omega)]
  have := Nat.lt_min.mpr ⟨show 0 < (grantedExpires (server.intervals req) expires).toNat by omega,
    hspread⟩
  omega

/-- A current binding of the request stands in the collection for a contact. -/
def Holds (env : Surroundings) (req : RegisterRequest) (s : Store) (contact : Text) : Prop :=
  ∃ d ∈ s.docs, d.contact = contact ∧ d.identity = env.toUrl.getIdentity ∧
    d.callId = req.callId ∧ d.cseq = req.cseq ∧ env.timeNow < d.expirationTime ∧
    ∃ i, d.timestamp = env.clock i

/-- A write of a binding of the request that lies in the future. -/
def Refreshes (env : Surroundings) (req : RegisterRequest) (contact : Text) (w : Write) : Prop :=
  ∃ i b, w = .updateBinding (env.clock i) b ∧ b.contact = contact ∧
    b.identity = env.toUrl.getIdentity ∧ b.callId = req.callId ∧ b.cseq = req.cseq ∧
    env.timeNow < b.expirationTime ∧ b.timestamp = 0

theorem Collected.refreshes (h : Collected server env req contact b)
    (hsane : SaneLimits server env req) (hasks : asksToUnregister server env req contact = false)
    (hlongest : longest ≤ (server.intervals req).maxExpiresTime) (i : Nat) :
    Refreshes env req (storedContact env contact) (.updateBinding (env.clock i)
      (expireAt (spreadExpirationTime (server.intervals req) longest env.rand) env.timeNow b)) := by
  have hfor := h.bindingFor (spreadExpirationTime (server.intervals req) longest env.rand) env.timeNow
  refine ⟨i, _, rfl, hfor.contact, hfor.identity, hfor.callId, hfor.cseq,
    h.expireAt_future hsane hasks hlongest, ?_⟩
  obtain ⟨expires, -, -, rfl⟩ := h
  rfl

theorem Refreshes.holds {w : Write} (h : Refreshes env req contact w) (s : Store) :
    Holds env req (w.onStore s) contact := by
  obtain ⟨i, b, rfl, hcontact, hid, hcall, hcseq, htime, hstamp⟩ := h
  refine ⟨{ b.completed (env.clock i) with shardId := s.shardId }, ?_, hcontact, hid, hcall,
    hcseq, htime, i, ?_⟩
  · simp [Write.onStore, Store.updateBinding]
  · simp [RegBinding.completed, hstamp]

theorem Holds.onStore {s : Store} (h : Holds env req s contact) {contact' : Text}
    {w : Write} (hw : Refreshes env req contact' w) : Holds env req (w.onStore s) contact := by
  by_cases hsame : contact' = contact
  · subst hsame
    exact hw.holds s
  · obtain ⟨d, hd, hcontact, hrest⟩ := h
    obtain ⟨i, b, rfl, hb, -⟩ := hw
    refine ⟨d, ?_, hcontact, hrest⟩
    have hne : d.contact ≠ b.contact := fun h => hsame (hb.symm.trans (h.symm.trans hcontact))
    simp only [Write.onStore, Store.updateBinding, mem_append, mem_filter]
    refine Or.inl ⟨hd, ?_⟩
    simp [RegBinding.completed, hne]

theorem holds_foldl {writes : List Write}
    (hwrites : ∀ w ∈ writes, ∃ contact, Refreshes env req contact w) : ∀ s : Store,
      (∀ contact, Holds env req s contact → Holds env req (writes.foldl Write.onStore s) contact) ∧
      (∀ contact, ∀ w ∈ writes, Refreshes env req contact w →
        Holds env req (writes.foldl Write.onStore s) contact) := by
  induction writes with
  | nil => intro s; exact ⟨fun _ h => h, fun _ w hw => by simp at hw⟩
  | cons w writes ih =>
    intro s
    obtain ⟨hkeep, hnew⟩ := ih (fun w hw => hwrites w (by simp [hw])) (w.onStore s)
    obtain ⟨contact', hw⟩ := hwrites w (by simp)
    refine ⟨fun contact h => hkeep contact (h.onStore hw), fun contact w' hw' hr => ?_⟩
    rcases mem_cons.mp hw' with rfl | hw'
    · exact hkeep contact (hr.holds s)
    · exact hnew contact w' hw' hr

theorem Holds.expireOldBindings {s : Store} (h : Holds env req s contact) :
    Holds env req (s.expireOldBindings env.toUrl.getIdentity req.callId req.cseq) contact := by
  obtain ⟨d, hd, hcontact, hid, hcall, hcseq, hrest⟩ := h
  refine ⟨d, ?_, hcontact, hid, hcall, hcseq, hrest⟩
  simp [Store.expireOldBindings, hd, hcseq]

/-- What is in the collection that is written is seen by the lookup. -/
theorem mem_unexpired {db : RegDB} {identity : Text} {d : RegBinding}
    (hgruu : gruuPrefix.isPrefixOf identity = false) (hd : d ∈ db.writeStore.docs)
    (hid : d.identity = identity) (htime : timeNow < d.expirationTime) :
    d ∈ db.unexpired identity timeNow := by
  have hbelongs : belongsTo identity d = true := by simp [belongsTo, hgruu, hid]
  rw [unexpired, mem_append]
  cases hr : db.regional with
  | none =>
    refine Or.inr ?_
    simp only [writeStore, hr, Option.getD_none] at hd
    simp [globalQuery, hr, hd, hbelongs, htime]
  | some s =>
    refine Or.inl ?_
    simp only [writeStore, hr, Option.getD_some] at hd
    simp [localQuery, hr, hd, hbelongs, htime]

end Found

/-! ## The survivors -/

section Survivors

variable (settings : AnswerSettings) (server : Server) (env : Surroundings) (db : RegDB)
  (req : RegisterRequest)

/-- The database after a request. -/
def after : RegDB := applyWrites db (applyRegisterToDirectory server env db req).writes

/-- The unexpired bindings of the address of record after a request. -/
def survivors : List RegBinding :=
  (after server env db req).unexpired env.toUrl.getIdentity env.timeNow

/-- The answer, for what the lookup delivers, is a 200 that shows exactly the
bindings of the address of record that are unexpired after the request, as far as
they are to be shown, each with its remaining lifetime. -/
structure ListsSurvivors (unexpired : List RegBinding) : Prop where
  lookup : NewestPerKey RegBinding.contact RegBinding.timestamp (survivors server env db req) unexpired
  ok : (answer settings server env req (applyRegisterToDirectory server env db req) unexpired).code =
    200
  contacts : Forall₂ (Shows env)
    (unexpired.filter (isShown settings (applyRegisterToDirectory server env db req).status req.callId))
    (answer settings server env req (applyRegisterToDirectory server env db req) unexpired).contacts

/-- The lookup after the request is unambiguous: no two contacts share a Call-Id, a
binding of another Call-Id for a contact of the request is older than it, and the
lifetimes fit an `int`; nor is the address of record a GRUU, or a testing contact
configured. -/
structure Unambiguous : Prop where
  callIds : CallIdsApart (survivors server env db req)
  older : ∀ b ∈ (applyRegisterToDirectory server env db req).registrations,
    ∀ d ∈ survivors server env db req, d.contact = b.contact → d.callId ≠ req.callId →
      ∀ i, d.timestamp < env.clock i
  lifetimes : ∀ d ∈ survivors server env db req, d.expirationTime < env.timeNow + 2 ^ 31
  limits : SaneLimits server env req
  notGruu : gruuPrefix.isPrefixOf env.toUrl.getIdentity = false
  noTestContact : settings.additionalContact = []

/-- If some contact asks to be unregistered, then nothing that remains is to be
shown; for the asterisk, nothing that has an asterisk in its contact. -/
def NothingLeftOut (unexpired : List RegBinding) : Prop :=
  req.contacts.any (asksToUnregister server env req) = true →
    if req.contacts = [asterisk] then
      ∀ b ∈ unexpired.filter (isShown settings .success req.callId),
        occursIn asterisk b.contact = false
    else unexpired.filter (isShown settings .success req.callId) = []

variable {settings server env db req}

/-- Every binding registered is among those that survive. -/
theorem exists_survivor (hlimits : SaneLimits server env req)
    (hgruu : gruuPrefix.isPrefixOf env.toUrl.getIdentity = false)
    (hasks : req.contacts.any (asksToUnregister server env req) = false)
    (hsuccess : (applyRegisterToDirectory server env db req).status = .success) :
    ∀ b ∈ (applyRegisterToDirectory server env db req).registrations,
      b.callId = req.callId ∧ ∃ d ∈ survivors server env db req, d.contact = b.contact ∧
        d.callId = req.callId ∧ ∃ i, d.timestamp = env.clock i := by
  obtain ⟨hstatus, -⟩ | ⟨hstatus, -⟩ | ⟨-, -, hstar, -⟩ |
    ⟨-, -, -, -, ⟨collected, longest, hall, hlongest, hregs⟩, hwrites⟩ :=
    applyRegisterToDirectory_cases server env db req
  · simp [hsuccess] at hstatus
  · simp [hsuccess] at hstatus
  · simp [hstar, asksToUnregister] at hasks
  have hlong := hlongest (by have := hlimits.min_pos; have := hlimits.min_le_max; omega)
  -- every update refreshes the contact of its binding
  have hrefresh : ∀ b ∈ (applyRegisterToDirectory server env db req).registrations,
      ∀ i, Refreshes env req b.contact (.updateBinding (env.clock i) b) ∧ b.callId = req.callId := by
    intro b hb i
    rw [hregs] at hb
    obtain ⟨b₀, hb₀, rfl⟩ := mem_map.mp hb
    obtain ⟨contact, hcontact, hcollected⟩ := exists_collected hall hb₀
    have hno : asksToUnregister server env req contact = false := by
      simpa using (any_eq_false.mp hasks) contact (mem_of_mem_filter hcontact)
    have hfor := hcollected.bindingFor
      (spreadExpirationTime (server.intervals req) longest env.rand) env.timeNow
    rw [hfor.contact]
    exact ⟨hcollected.refreshes hlimits hno hlong i, hfor.callId⟩
  intro b hb
  refine ⟨(hrefresh b hb 0).2, ?_⟩
  obtain ⟨i, hi, rfl⟩ := getElem_of_mem hb
  have hupdates : ∀ w ∈ (applyRegisterToDirectory server env db req).registrations.mapIdx
      (fun i b => Write.updateBinding (env.clock i) b), ∃ contact, Refreshes env req contact w := by
    intro w hw
    obtain ⟨j, hj, rfl⟩ := mem_mapIdx.mp hw
    exact ⟨_, (hrefresh _ (getElem_mem hj) j).1⟩
  have hholds := (holds_foldl hupdates db.writeStore).2 _ _
    (mem_mapIdx.mpr ⟨i, hi, rfl⟩) (hrefresh _ hb i).1
  obtain ⟨d, hd, hcontact, hid, hcall, -, htime, hstamp⟩ := hholds.expireOldBindings
  refine ⟨d, mem_unexpired hgruu ?_ hid htime, hcontact, hcall, hstamp⟩
  rw [after, writeStore_applyWrites, hwrites, foldl_append]
  exact hd

/-- Merging adds nothing to a lookup that has all survivors. -/
theorem mergeNewBindings_eq {unexpired : List RegBinding}
    (hunamb : Unambiguous settings server env db req)
    (hasks : req.contacts.any (asksToUnregister server env req) = false)
    (hsuccess : (applyRegisterToDirectory server env db req).status = .success)
    (hlookup : NewestPerKey RegBinding.contact RegBinding.timestamp (survivors server env db req)
      unexpired) :
    mergeNewBindings unexpired (applyRegisterToDirectory server env db req).registrations =
      unexpired := by
  rw [mergeNewBindings, append_right_eq_self, filter_eq_nil_iff]
  intro b hb
  obtain ⟨hcall, d, hd, hcontact, hdcall, i, hstamp⟩ :=
    exists_survivor hunamb.limits hunamb.notGruu hasks hsuccess b hb
  obtain ⟨a, ha, hac⟩ := hlookup.all d hd
  have hacall : a.callId = req.callId := by
    by_contra hne
    have holder := hunamb.older b hb a (hlookup.mem a ha) (hac.trans hcontact) hne i
    have hnewest := hlookup.newest a ha d hd hac.symm
    omega
  have hfound : unexpired.any (fun d => b.contact == d.contact && b.callId == d.callId) = true := by
    rw [any_eq_true]
    exact ⟨a, ha, by simp [hac, hcontact, hacall, hcall]⟩
  simp [hfound]

theorem validateUnregisteredBindings_asterisk (unexpired : List RegBinding) :
    validateUnregisteredBindings [asterisk] unexpired =
      unexpired.filter fun b => !occursIn asterisk b.contact := by
  by_cases h : unexpired = [] <;> simp [validateUnregisteredBindings, h]

theorem validateUnregisteredBindings_of_not_mem {contacts : List Text}
    (h : asterisk ∉ contacts) (unexpired : List RegBinding) :
    validateUnregisteredBindings contacts unexpired = [] := by
  have hfirst : contacts.head?.getD [] ≠ asterisk := by
    cases contacts with
    | nil => decide
    | cons contact contacts =>
      rintro rfl
      simp at h
  simp [validateUnregisteredBindings, hfirst]

/-- **The answer lists the survivors.**  After an unambiguous lookup that is so exactly
if nothing was unregistered, or nothing that remains is left out for that. -/
theorem listsSurvivors_iff {unexpired : List RegBinding}
    (hstatus : (applyRegisterToDirectory server env db req).status = .success ∨
      (applyRegisterToDirectory server env db req).status = .query)
    (hunamb : Unambiguous settings server env db req)
    (hreturns : (after server env db req).Returns env.toUrl.getIdentity env.timeNow unexpired) :
    ListsSurvivors settings server env db req unexpired ↔
      NothingLeftOut settings server env req unexpired := by
  have hlookup : NewestPerKey RegBinding.contact RegBinding.timestamp
      (survivors server env db req) unexpired := hreturns.newestPerContact hunamb.callIds
  have hlife : ∀ b ∈ unexpired, env.timeNow < b.expirationTime ∧
      b.expirationTime < env.timeNow + 2 ^ 31 := fun b hb =>
    ⟨unexpired_expirationTime (hlookup.mem b hb), hunamb.lifetimes b (hlookup.mem b hb)⟩
  have hshows : ∀ p : RegBinding → Bool, Forall₂ (Shows env) (unexpired.filter p)
      (okAnswer settings env (unexpired.filter p)).contacts := by
    intro p
    simp only [okAnswer, hunamb.noTestContact, if_true, append_nil]
    exact forall₂_contactTexts (fun b hb => hlife b (mem_of_mem_filter hb)) true
  -- the answer is a 200 that shows some list of bindings
  have hlists : ∀ shown : List RegBinding,
      answer settings server env req (applyRegisterToDirectory server env db req) unexpired =
        okAnswer settings env shown →
      (ListsSurvivors settings server env db req unexpired ↔ Forall₂ (Shows env)
        (unexpired.filter (isShown settings (applyRegisterToDirectory server env db req).status
          req.callId)) (okAnswer settings env shown).contacts) := by
    intro shown hanswer
    refine ⟨fun h => hanswer ▸ h.contacts, fun h => ⟨hlookup, by rw [hanswer]; rfl, ?_⟩⟩
    rw [hanswer]
    exact h
  obtain ⟨herror, -⟩ | ⟨hquery, -, hregs, hunreg, hasks⟩ | ⟨hsuccess, hunreg, hstar, -⟩ |
    ⟨hsuccess, hstar, hunreg, hne, -⟩ := applyRegisterToDirectory_cases server env db req
  · rcases hstatus with h | h <;> simp [h] at herror
  · have hanswer : answer settings server env req (applyRegisterToDirectory server env db req)
        unexpired = okAnswer settings env (unexpired.filter
          (isShown settings (applyRegisterToDirectory server env db req).status req.callId)) := by
      simp [answer, hquery, hunreg, hregs, mergeNewBindings]
    rw [hlists _ hanswer]
    exact iff_of_true (hshows _) fun h => by simp [hasks] at h
  · have hanswer : answer settings server env req (applyRegisterToDirectory server env db req)
        unexpired = okAnswer settings env ((unexpired.filter fun b => !occursIn asterisk b.contact).filter
          (isShown settings .success req.callId)) := by
      simp [answer, hsuccess, hunreg, hstar, validateUnregisteredBindings_asterisk]
    have hcomm : (unexpired.filter fun b => !occursIn asterisk b.contact).filter
        (isShown settings .success req.callId) =
        (unexpired.filter (isShown settings .success req.callId)).filter
          fun b => !occursIn asterisk b.contact := by
      rw [filter_comm]
    have hasks : req.contacts.any (asksToUnregister server env req) = true := by
      simp [hstar, asksToUnregister]
    rw [hlists _ hanswer, hsuccess, hcomm, NothingLeftOut, hasks, if_pos hstar]
    have hall' : Forall₂ (Shows env)
        ((unexpired.filter (isShown settings .success req.callId)).filter
          fun b => !occursIn asterisk b.contact)
        (okAnswer settings env ((unexpired.filter (isShown settings .success req.callId)).filter
          fun b => !occursIn asterisk b.contact)).contacts := by
      rw [filter_filter]
      exact hshows _
    constructor
    · intro hall _ b hb
      -- as many bindings are shown as are to be shown, so none was filtered out
      have hlen := hall'.length_eq.trans hall.length_eq.symm
      simpa using length_filter_eq_length_iff.mp hlen b hb
    · intro hnone
      have hself : (unexpired.filter (isShown settings .success req.callId)).filter
          (fun b => !occursIn asterisk b.contact) =
          unexpired.filter (isShown settings .success req.callId) :=
        filter_eq_self.mpr fun b hb => by simp [hnone rfl b hb]
      rw [hself] at hall' ⊢
      exact hall'
  · by_cases hasks : req.contacts.any (asksToUnregister server env req) = true
    · have hanswer : answer settings server env req (applyRegisterToDirectory server env db req)
          unexpired = okAnswer settings env [] := by
        simp [answer, hsuccess, hunreg, hasks, validateUnregisteredBindings_of_not_mem hstar]
      have hnotone : req.contacts ≠ [asterisk] := fun h => hstar (by simp [h])
      have hempty : (okAnswer settings env []).contacts = [] := by
        simp [okAnswer, contactTexts, hunamb.noTestContact]
      rw [hlists _ hanswer, hsuccess, hempty, forall₂_nil_right_iff, NothingLeftOut,
        if_neg hnotone]
      exact ⟨fun h _ => h, fun h => h hasks⟩
    · have hfalse : req.contacts.any (asksToUnregister server env req) = false := by simpa using hasks
      have hmerge := mergeNewBindings_eq hunamb hfalse hsuccess hlookup
      have hnonempty : unexpired ≠ [] := by
        obtain ⟨b, hb⟩ := exists_mem_of_ne_nil _ hne
        obtain ⟨-, d, hd, -⟩ := exists_survivor hunamb.limits hunamb.notGruu hfalse hsuccess b hb
        obtain ⟨a, ha, -⟩ := hlookup.all d hd
        exact ne_nil_of_mem ha
      have hanswer : answer settings server env req (applyRegisterToDirectory server env db req)
          unexpired = okAnswer settings env (unexpired.filter
            (isShown settings (applyRegisterToDirectory server env db req).status req.callId)) := by
        simp [answer, hsuccess, hunreg, hfalse, hmerge, hnonempty]
      rw [hlists _ hanswer]
      exact iff_of_true (hshows _) fun h => by simp [hfalse] at h

/-- A request of one phone that registers one contact. -/
def registerOne : RegisterRequest where
  callId := text "a@1"
  cseq := 1
  contacts := [text "<sip:200@10.0.0.1>;expires=600"]

/-- A request of the phone that unregisters one contact and registers another. -/
def registerOther : RegisterRequest where
  callId := text "a@1"
  cseq := 2
  contacts := [text "<sip:200@10.0.0.1>;expires=0", text "<sip:200@10.0.0.2>;expires=600"]

/-- What the lookup delivers after a request when its cursor keeps the order. -/
def lookedUp (db : RegDB) (req : RegisterRequest) : List RegBinding :=
  getUnexpiredContactsUser testSurroundings.timeNow []
    ((after testServer testSurroundings db req).globalQuery testSurroundings.toUrl.getIdentity
      testSurroundings.timeNow)

theorem listsSurvivors_registerOne :
    ListsSurvivors {} testServer testSurroundings { global := ⟨1, []⟩ } registerOne
      (lookedUp { global := ⟨1, []⟩ } registerOne) := by
  have hcall : ∀ d ∈ survivors testServer testSurroundings { global := ⟨1, []⟩ } registerOne,
      d.callId = registerOne.callId := by
    decide +kernel
  have hunamb : Unambiguous {} testServer testSurroundings { global := ⟨1, []⟩ } registerOne := by
    refine ⟨?_, fun b _ d hd _ hne => absurd (hcall d hd) hne, ?_, ⟨?_, ?_, ?_⟩, ?_, rfl⟩
    · unfold CallIdsApart
      decide +kernel
    all_goals decide +kernel
  refine (listsSurvivors_iff (Or.inl (by decide +kernel)) hunamb
    ⟨[], _, Perm.refl _, Perm.refl _, rfl⟩).mpr fun hasks => ?_
  revert hasks
  decide +kernel

/-- The contact that remains is not shown: the answer to a request that unregisters
one contact shows none. -/
theorem unregister_one_lists_none :
    (applyRegisterToDirectory testServer testSurroundings { global := ⟨1, []⟩ } registerOther).status =
        .success ∧
      (after testServer testSurroundings { global := ⟨1, []⟩ } registerOther).Returns
        testSurroundings.toUrl.getIdentity testSurroundings.timeNow
        (lookedUp { global := ⟨1, []⟩ } registerOther) ∧
      ¬ ListsSurvivors {} testServer testSurroundings { global := ⟨1, []⟩ } registerOther
        (lookedUp { global := ⟨1, []⟩ } registerOther) := by
  refine ⟨by decide +kernel, ⟨[], _, Perm.refl _, Perm.refl _, rfl⟩, fun h => ?_⟩
  have hlen := h.contacts.length_eq
  revert hlen
  decide +kernel

end Survivors

end SipRegistrarServer

end SipXRouter
