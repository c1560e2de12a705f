import SipXRouter.Net.XmlRpcBody
import SipXRouter.Registry.RegisterResponse

/-!
# Granted lifetimes

`initialize` reads a minimum and a maximum for the lifetime of a binding, one pair for phones
behind a NAT and one for the others; `applyRegisterToDirectory` grants lifetimes between them, up
to a random limit for each request.  A configured maximum is raised to the minimum, but a default
one is not.
-/

namespace SipXRouter.SipRegistrarServer

open List

/-! ## The limits -/

/-- `HARD_MINIMUM_EXPIRATION`. -/
def hardMinimumExpiration : Int := 60

/-- `MIN_EXPIRES_TIME_NORMAL` and `MAX_EXPIRES_TIME_NORMAL`. -/
def defaultNormal : RegistrationExpiryIntervals := ⟨300, 7200⟩

/-- `MIN_EXPIRES_TIME_NATED` and `MAX_EXPIRES_TIME_NATED`. -/
def defaultNated : RegistrationExpiryIntervals := ⟨180, 300⟩

/-- What `OsConfigDb::get` delivers for the four keys, an empty text where there is no value. -/
structure ExpiresConfig where
  minNormal : Text := []
  maxNormal : Text := []
  minNated : Text := []
  maxNated : Text := []
deriving DecidableEq

/-- A pair of limits: a configured minimum is at least the hard one, and a configured maximum at
least the minimum. -/
def configuredIntervals (defaults : RegistrationExpiryIntervals) (minExpires maxExpires : Text) :
    RegistrationExpiryIntervals :=
  let minExpiresTime :=
    if minExpires = [] then defaults.minExpiresTime
    else max hardMinimumExpiration (XmlRpc.atoi minExpires).toInt
  let maxExpiresTime :=
    if maxExpires = [] then defaults.maxExpiresTime
    else max minExpiresTime (XmlRpc.atoi maxExpires).toInt
  ⟨minExpiresTime, maxExpiresTime⟩

/-- `initialize`, as far as the limits go. -/
def initializeIntervals (server : Server) (config : ExpiresConfig) : Server :=
  { server with
    normalExpiryIntervals := configuredIntervals defaultNormal config.minNormal config.maxNormal
    natedExpiryIntervals := configuredIntervals defaultNated config.minNated config.maxNated }

/-! ## Lifetimes within the limits -/

/-- The divisor of the remainder operation, where there is one. -/
def spreadDivisor (limits : RegistrationExpiryIntervals) (longestRequested : Int) : Option Int :=
  if limits.minExpiresTime * 2 < longestRequested then
    some (longestRequested - limits.minExpiresTime * 2)
  else if limits.minExpiresTime < longestRequested then
    some (longestRequested - limits.minExpiresTime)
  else none

/-- The random limit is computed: twice the minimum is an `int`, and no divisor is zero. -/
structure Computes (limits : RegistrationExpiryIntervals) (longestRequested : Int) : Prop where
  doubled : limits.minExpiresTime * 2 < 2 ^ 31
  divisor : spreadDivisor limits longestRequested ≠ some 0

/-- A lifetime within the limits, and no longer than what was asked for. -/
structure Within (limits : RegistrationExpiryIntervals) (requested lifetime : Int) : Prop where
  least : limits.minExpiresTime ≤ lifetime
  most : lifetime ≤ limits.maxExpiresTime
  asked : lifetime ≤ requested

/-- What is stored for a contact that asks for a lifetime: the time at which one within the limits
ends, or zero. -/
def StoresWithin (server : Server) (env : Surroundings) (req : RegisterRequest)
    (b : RegBinding) : Prop :=
  ∃ contact ∈ req.contacts, ∃ requested lifetime : Int,
    b.contact = storedContact env contact ∧
    requestedExpires env.stackByte (server.commonExpires req) (Url.ofText contact .nameAddr) =
      some requested ∧
    (lifetime ≠ 0 → Within (server.intervals req) requested lifetime) ∧
    b.expirationTime = if lifetime = 0 then 0 else toUInt64 (toInt32 (lifetime + env.timeNow))

/-- **Granted lifetimes are within the limits**, for every request and every random number. -/
def GrantsWithin (server : Server) : Prop :=
  ∀ env db req clock b, .updateBinding clock b ∈ (applyRegisterToDirectory server env db req).writes →
    Computes (server.intervals req)
        (scanContacts server env req req.contacts {}).longestRequested ∧
      StoresWithin server env req b

/-- Limits under which this holds: the maximum is not below the minimum, which can be doubled. -/
structure RegistrationExpiryIntervals.Sane (limits : RegistrationExpiryIntervals) : Prop where
  ordered : limits.minExpiresTime ≤ limits.maxExpiresTime
  doubled : limits.minExpiresTime * 2 < 2 ^ 31

/-! ## What is configured -/

/-- The limits of a configuration are positive and fit an `int`. -/
theorem configuredIntervals_pos {defaults : RegistrationExpiryIntervals}
    (hdefaults : 0 < defaults.minExpiresTime ∧ defaults.minExpiresTime < 2 ^ 31 ∧
      0 < defaults.maxExpiresTime ∧ defaults.maxExpiresTime < 2 ^ 31)
    (minExpires maxExpires : Text) :
    let limits := configuredIntervals defaults minExpires maxExpires
    0 < limits.minExpiresTime ∧ limits.minExpiresTime < 2 ^ 31 ∧
      0 < limits.maxExpiresTime ∧ limits.maxExpiresTime < 2 ^ 31 := by
  intro limits
  have hmin : 0 < limits.minExpiresTime ∧ limits.minExpiresTime < 2 ^ 31 := by
    have hlt := (XmlRpc.atoi minExpires).toInt_lt
    show 0 < (if minExpires = [] then defaults.minExpiresTime
        else max hardMinimumExpiration (XmlRpc.atoi minExpires).toInt) ∧
      (if minExpires = [] then defaults.minExpiresTime
        else max hardMinimumExpiration (XmlRpc.atoi minExpires).toInt) < 2 ^ 31
    rw [hardMinimumExpiration]
    split <;> omega
  have hlt := (XmlRpc.atoi maxExpires).toInt_lt
  have hmax : limits.maxExpiresTime = if maxExpires = [] then defaults.maxExpiresTime
      else max limits.minExpiresTime (XmlRpc.atoi maxExpires).toInt := rfl
  refine ⟨hmin.1, hmin.2, ?_⟩
  rw [hmax]
  split <;> omega

/-! ## One request -/

variable {b : RegBinding} {limits : RegistrationExpiryIntervals}

section Grants

variable {server : Server} {env : Surroundings} {db : RegDB} {req : RegisterRequest}

/-- What the first pass collects for a contact. -/
def CollectedFor (server : Server) (env : Surroundings) (req : RegisterRequest) (contact : Text)
    (b : RegBinding) : Prop :=
  ∃ requested : Int,
    requestedExpires env.stackByte (server.commonExpires req) (Url.ofText contact .nameAddr) =
      some requested ∧
    (requested ≠ 0 → (server.intervals req).minExpiresTime ≤ requested) ∧
    b = newBinding server env req contact (grantedExpires (server.intervals req) requested)

/-- Every binding collected comes from one of the contacts. -/
theorem mem_scanContacts (contacts : List Text) :
    ∀ st : Scan, ∀ b ∈ (scanContacts server env req contacts st).registrations,
      b ∈ st.registrations ∨ ∃ contact ∈ contacts, CollectedFor server env req contact b := by
  induction contacts with
  | nil =>
    intro st b hb
    exact Or.inl hb
  | cons contact contacts ih =>
    intro st b hb
    rw [scanContacts] at hb
    split at hb
    · rcases ih _ b hb with hb | ⟨later, hlater, hfor⟩
      · obtain ⟨-, -, heq⟩ | ⟨status, -, heq⟩ | ⟨-, -, requested, hrequested, hmin, heq⟩ |
          ⟨-, -, heq⟩ := scanContact_cases server env req st contact
        all_goals rw [heq] at hb
        · exact Or.inl hb
        · exact Or.inl hb
        · rcases mem_append.mp hb with hb | hb
          · exact Or.inl hb
          · exact Or.inr ⟨contact, mem_cons_self, requested, hrequested, hmin,
              mem_singleton.mp hb⟩
        · exact Or.inl hb
      · exact Or.inr ⟨later, mem_cons_of_mem _ hlater, hfor⟩
    · exact Or.inl hb

/-- Every binding written was collected, and has its expiry spread. -/
theorem exists_of_updateBinding {clock : Nat}
    (hb : .updateBinding clock b ∈ (applyRegisterToDirectory server env db req).writes) :
    let scan := scanContacts server env req req.contacts {}
    scan.status = .success ∧ ∃ c ∈ scan.registrations,
      b = expireAt (spreadExpirationTime (server.intervals req) scan.longestRequested env.rand)
        env.timeNow c := by
  intro scan
  simp only [applyRegisterToDirectory, RegDB.isOutOfSequence, Bool.false_eq_true, if_false] at hb
  change Write.updateBinding clock b ∈ (if scan.status ≠ .success then _ else _ : Outcome).writes
    at hb
  by_cases hstatus : scan.status = .success
  · rw [if_neg (not_not.mpr hstatus)] at hb
    refine ⟨hstatus, ?_⟩
    split at hb
    · simp at hb
    split at hb
    · split at hb <;> simp at hb
    split at hb
    · simp at hb
    · simp only [mem_append, mem_mapIdx, getElem_map, mem_singleton,
        length_map, reduceCtorEq, or_false, Write.updateBinding.injEq] at hb
      obtain ⟨i, hi, -, hb⟩ := hb
      exact ⟨_, getElem_mem hi, hb.symm⟩
  · rw [if_pos hstatus] at hb
    simp at hb

theorem within_grantedExpires (hsane : limits.Sane)
    (hpos : 0 < limits.minExpiresTime) {requested : Int}
    (hmin : limits.minExpiresTime ≤ requested) :
    Within limits requested (grantedExpires limits requested) := by
  have hordered := hsane.ordered
  rw [grantedExpires]
  constructor <;> split <;> omega

theorem expirationTime_expireAt {spread timeNow : Nat} {granted : Int}
    (hb : b.expirationTime = toUInt64 granted) (hpos : 0 < granted) (hlt : granted < 2 ^ 31) :
    (expireAt spread timeNow b).expirationTime =
      toUInt64 (toInt32 (min granted (spread : Int) + timeNow)) := by
  have hexact : toUInt32 b.expirationTime = granted.toNat := by
    rw [hb, toUInt32_toUInt64 hpos hlt]
  have hmin : ((min granted.toNat spread : Nat) : Int) = min granted (spread : Int) := by omega
  rw [expireAt, hexact]
  show (if granted.toNat = 0 then 0
    else toUInt64 (toInt32 ((min granted.toNat spread : Nat) + (timeNow : Int)))) = _
  rw [if_neg (by omega), hmin]

theorem storesWithin_of_sane (hsane : (server.intervals req).Sane)
    (hpos : 0 < (server.intervals req).minExpiresTime)
    (hlimit : (server.intervals req).maxExpiresTime < 2 ^ 31) {clock : Nat}
    (hb : .updateBinding clock b ∈ (applyRegisterToDirectory server env db req).writes) :
    StoresWithin server env req b := by
  obtain ⟨hstatus, c, hc, rfl⟩ := exists_of_updateBinding hb
  have hordered := hsane.ordered
  have hlongest := (scanContacts_success req.contacts {} rfl hstatus).2.2.2 (by omega)
    (show (-1 : Int) ≤ _ by omega)
  have hspread := minExpiresTime_le_spread hpos (by omega)
    (show (scanContacts server env req req.contacts {}).longestRequested < 2 ^ 31 by omega) env.rand
  obtain hc | ⟨contact, hcontact, requested, hrequested, hmin, rfl⟩ := mem_scanContacts _ _ _ hc
  · exact absurd hc not_mem_nil
  by_cases hzero : requested = 0
  · subst hzero
    exact ⟨contact, hcontact, 0, 0, rfl, hrequested, fun h => absurd rfl h, rfl⟩
  · have hwithin := within_grantedExpires hsane hpos (hmin hzero)
    have hleast := hwithin.least
    have hmost := hwithin.most
    refine ⟨contact, hcontact, requested, min (grantedExpires (server.intervals req) requested) _,
      rfl, hrequested, fun _ => ⟨le_min hleast hspread, (min_le_left _ _).trans hmost,
        (min_le_left _ _).trans hwithin.asked⟩, ?_⟩
    rw [expirationTime_expireAt rfl (by omega) (by omega), if_neg (by omega)]

theorem computes_of_doubled (longestRequested : Int)
    (hdoubled : limits.minExpiresTime * 2 < 2 ^ 31) : Computes limits longestRequested := by
  refine ⟨hdoubled, ?_⟩
  rw [spreadDivisor]
  split
  · rw [Ne, Option.some_inj]
    omega
  split
  · rw [Ne, Option.some_inj]
    omega
  · exact (Option.some_ne_none 0).symm

end Grants

/-! ## All requests -/

/-- A request for one contact with a lifetime for all. -/
def askingFor (behindNat : Bool) (expires : Int) : RegisterRequest where
  behindNat := behindNat
  expiresField := some expires
  callId := text "a@1"
  cseq := 1
  contacts := [text "<sip:200@10.0.0.1>"]

theorem exists_updateBinding (server : Server) (env : Surroundings) (db : RegDB) (behindNat : Bool)
    (hlimits : server.intervals (askingFor behindNat limits.minExpiresTime) = limits) :
    ∃ b, b.expirationTime = toUInt64 (grantedExpires limits limits.minExpiresTime) ∧
      .updateBinding (env.clock 0) (expireAt
          (spreadExpirationTime limits (max (-1) (grantedExpires limits limits.minExpiresTime))
            env.rand) env.timeNow b) ∈ (applyRegisterToDirectory server env db
          (askingFor behindNat limits.minExpiresTime)).writes := by
  generalize hreq : askingFor behindNat limits.minExpiresTime = req at hlimits
  have hcontacts : req.contacts = [text "<sip:200@10.0.0.1>"] := by rw [← hreq]; rfl
  have hexpires : req.expiresField = some limits.minExpiresTime := by rw [← hreq]; rfl
  have hsip : text "<sip:200@10.0.0.1>" ≠ asterisk ∧
      isSipContact (text "<sip:200@10.0.0.1>") = true ∧
      ((Url.ofText (text "<sip:200@10.0.0.1>") .nameAddr).getFieldParameter
        (text "EXPIRES")).getD [] = [] := by
    decide +kernel
  have hrequested : requestedExpires env.stackByte (server.commonExpires req)
      (Url.ofText (text "<sip:200@10.0.0.1>") .nameAddr) = some limits.minExpiresTime := by
    rw [requestedExpires, hsip.2.2, Server.commonExpires, hexpires]
    rfl
  have hscan : scanContacts server env req req.contacts {} =
      collect server env req {} (text "<sip:200@10.0.0.1>") limits.minExpiresTime := by
    rw [hcontacts, scanContacts, if_pos rfl, scanContact, if_neg hsip.1, if_pos hsip.2.1,
      hrequested]
    simp only [hlimits, lt_self_iff_false, and_false, if_false]
    rfl
  refine ⟨newBinding server env req (text "<sip:200@10.0.0.1>")
    (grantedExpires limits limits.minExpiresTime), rfl, ?_⟩
  have hne : req.contacts ≠ [] := by rw [hcontacts]; exact cons_ne_nil _ _
  simp only [applyRegisterToDirectory, RegDB.isOutOfSequence, Bool.false_eq_true, if_false, hscan,
    hlimits]
  rw [if_neg hne]
  simp [collect, hlimits]

theorem sane_of_grantsWithin {server : Server} (hgrants : GrantsWithin server) (behindNat : Bool)
    {limits : RegistrationExpiryIntervals}
    (hlimits : server.intervals (askingFor behindNat limits.minExpiresTime) = limits)
    (hrange : 0 < limits.minExpiresTime ∧ limits.minExpiresTime < 2 ^ 31 ∧
      0 < limits.maxExpiresTime ∧ limits.maxExpiresTime < 2 ^ 31) : limits.Sane := by
  obtain ⟨b, hb, hwrite⟩ := exists_updateBinding server { testSurroundings with timeNow := 0 }
    { global := ⟨1, []⟩ } behindNat hlimits
  obtain ⟨hcomputes, contact, -, requested, lifetime, -, -, hwithin, htime⟩ :=
    hgrants _ _ _ _ _ hwrite
  rw [hlimits] at hcomputes hwithin
  have hgranted : 0 < grantedExpires limits limits.minExpiresTime ∧
      grantedExpires limits limits.minExpiresTime < 2 ^ 31 := by
    rw [grantedExpires]
    split <;> omega
  generalize hlongest : max (-1) (grantedExpires limits limits.minExpiresTime) = longest at htime
  have hspread := minExpiresTime_le_spread hrange.1 hrange.2.1 (show longest < 2 ^ 31 by omega) 0
  refine ⟨?_, hcomputes.doubled⟩
  have hne : lifetime ≠ 0 := by
    rintro rfl
    rw [if_pos rfl, expirationTime_expireAt hb hgranted.1 hgranted.2] at htime
    change toUInt64 (toInt32 (min (grantedExpires limits limits.minExpiresTime)
      (spreadExpirationTime limits longest 0 : Int) + 0)) = 0 at htime
    simp only [toUInt64, toInt32] at htime
    omega
  exact (hwithin hne).least.trans (hwithin hne).most

/-- **Which configurations keep to their limits**: those whose maxima are not below the minima, and
whose minima can be doubled. -/
theorem grantsWithin_iff (server : Server) (config : ExpiresConfig) :
    GrantsWithin (initializeIntervals server config) ↔
      (initializeIntervals server config).normalExpiryIntervals.Sane ∧
        (initializeIntervals server config).natedExpiryIntervals.Sane := by
  have hnormal := @configuredIntervals_pos defaultNormal (by decide) config.minNormal config.maxNormal
  have hnated := @configuredIntervals_pos defaultNated (by decide) config.minNated config.maxNated
  constructor
  · intro hgrants
    exact ⟨sane_of_grantsWithin hgrants false rfl hnormal,
      sane_of_grantsWithin hgrants true rfl hnated⟩
  · rintro ⟨hsaneNormal, hsaneNated⟩ env db req clock b hb
    obtain hlimits | hlimits : (initializeIntervals server config).intervals req =
        configuredIntervals defaultNormal config.minNormal config.maxNormal ∨
        (initializeIntervals server config).intervals req =
          configuredIntervals defaultNated config.minNated config.maxNated := by
      rw [Server.intervals]
      split
      · exact Or.inr rfl
      · exact Or.inl rfl
    · have hsane : ((initializeIntervals server config).intervals req).Sane := hlimits ▸ hsaneNormal
      exact ⟨computes_of_doubled _ hsane.doubled, storesWithin_of_sane hsane
        (by rw [hlimits]; exact hnormal.1) (by rw [hlimits]; exact hnormal.2.2.2) hb⟩
    · have hsane : ((initializeIntervals server config).intervals req).Sane := hlimits ▸ hsaneNated
      exact ⟨computes_of_doubled _ hsane.doubled, storesWithin_of_sane hsane
        (by rw [hlimits]; exact hnated.1) (by rw [hlimits]; exact hnated.2.2.2) hb⟩

/-- With a minimum of three hours and no maximum, a phone that asks for three hours is granted
two. -/
theorem not_grantsWithin_default_max :
    let server := initializeIntervals testServer { minNormal := text "10800" }
    (applyRegisterToDirectory server testSurroundings { global := ⟨1, []⟩ }
        (askingFor false 10800)).registrations.map (·.expirationTime) = [1000 + 7200] ∧
      ¬ GrantsWithin server := by
  intro server
  refine ⟨by decide +kernel, fun hgrants => ?_⟩
  have hsane := @sane_of_grantsWithin server hgrants false ⟨10800, 7200⟩ (by decide +kernel)
    (by decide)
  exact absurd hsane.ordered (by decide)

end SipXRouter.SipRegistrarServer
