import SipXRouter.Digitmaps.UrlMapping
import SipXRouter.Proxy.ProxyMessage

/-!
# Subscriptions that need an identity

`SubscriptionAuth` is a plugin that denies a `SUBSCRIBE` without an identity for certain event
packages, so that the subscriber is challenged.  It looks for the whole value of the Event header
in its list of packages, parameters and white space included.
-/

namespace SipXRouter

open List NameValueTokenizer UrlMapping SipRouter

/-- The plugin: the packages, and the tests of the exempted targets. -/
structure SubscriptionAuth where
  eventPackagesRequiringAuthentication : List Text
  targetsExemptedFromAuthentication : List (Text → Bool)

namespace SubscriptionAuth

/-! ## The configuration -/

/-- What the configuration has for the two keys of the plugin, empty where it has nothing. -/
structure Config where
  eventsRequiringAuthentication : Text := []
  targetsExemptedFromAuthentication : Text := []
deriving DecidableEq

/-- What stands between the entries of a list. -/
def isSeparator : Byte → Bool := oneOf ", \t"

/-- The loop over the entries of a list, from an index on: it goes on as long as `getSubField`
reports one, and an empty one behind the last separator is reported. -/
def entriesFrom (value : Text) : (fuel index : Nat) → List Text
  | 0, _ => []
  | fuel + 1, index =>
    if maxFieldLength < value.length then []
    else
      match getSubFieldPtr value index isSeparator with
      | none => []
      | some (sub, _) => sub :: entriesFrom value fuel (index + 1)

/-- The entries of a list; a value that is not there has none. -/
def entries (value : Text) : List Text :=
  if value = [] then [] else entriesFrom value (value.length + 2) 0

/-- `readConfig`: an expression that does not compile is left out. -/
def readConfig (pcre : Pcre) (config : Config) : SubscriptionAuth where
  eventPackagesRequiringAuthentication := entries config.eventsRequiringAuthentication
  targetsExemptedFromAuthentication :=
    (entries config.targetsExemptedFromAuthentication).filterMap (pcre false)

/-! ## The decision -/

/-- `SIP_EVENT_FIELD`. -/
def eventFieldName : Text := text "EVENT"

def getEventField (m : SipMessage) : Option Text := (m.getHeaderValue 0 eventFieldName).map cString

def isTargetExemptedFromAuthentication (p : SubscriptionAuth) (targetUser : Text) : Bool :=
  p.targetsExemptedFromAuthentication.any fun search => search targetUser

/-- Whether the plugin denies a request with such an Event header. -/
def requiresAuthentication (p : SubscriptionAuth) (call : AuthCall) (eventField : Text) : Bool :=
  call.priorResult == .continue && call.id == [] && call.method == text "SUBSCRIBE" &&
    p.eventPackagesRequiringAuthentication.contains eventField &&
    !p.isTargetExemptedFromAuthentication call.requestUri.userId

/-- `authorizeAndModify`: the result and the reason. -/
def authorizeAndModify (p : SubscriptionAuth) (call : AuthCall) (request : SipMessage)
    (reason : Text) : AuthResult × Text :=
  match getEventField request with
  | some eventField =>
    if p.requiresAuthentication call eventField then
      (.deny, text "Authentication Required to Subscribe to " ++ eventField)
    else (.continue, reason)
  | none => (.continue, reason)

/-! ## What should be denied -/

/-- The event package that a header names: what stands in front of the parameters, without white
space around it. -/
def eventType (eventField : Text) : Text :=
  trim isBlank (eventField.takeWhile (· != byte ';'))

/-- **A subscription that should be denied**: nobody has decided about it, nobody has proved who he
is, and it names a package of the list, for a target that is not exempted. -/
structure IsDue (p : SubscriptionAuth) (call : AuthCall) (request : SipMessage)
    (eventField : Text) : Prop where
  undecided : call.priorResult = .continue
  unauthenticated : call.id = []
  subscribe : call.method = text "SUBSCRIBE"
  event : getEventField request = some eventField
  listed : eventType eventField ∈ p.eventPackagesRequiringAuthentication
  notExempted : p.isTargetExemptedFromAuthentication call.requestUri.userId = false

/-! ## The entries of a list -/

theorem getSubFieldLoop_bytes {sep Q : Byte → Bool} {sub rest : Text} :
    ∀ {s cur : Text} {k : Nat}, (∀ c ∈ cur, Q c = true) → (∀ c ∈ s, sep c = false → Q c = true) →
      getSubFieldLoop sep k cur s = some (sub, rest) → ∀ c ∈ sub, Q c = true := by
  intro s
  induction s with
  | nil =>
    intro cur k hcur _ h
    simp only [getSubFieldLoop] at h
    split at h
    · rw [← (Prod.mk.inj (Option.some_inj.mp h)).1]
      exact hcur
    · cases h
  | cons c s ih =>
    intro cur k hcur hs h
    have hrest : ∀ c ∈ s, sep c = false → Q c = true :=
      fun d hd => hs d (mem_cons_of_mem _ hd)
    have hnil : ∀ c ∈ ([] : Text), Q c = true := fun d hd => absurd hd not_mem_nil
    simp only [getSubFieldLoop] at h
    split at h
    · split at h
      · exact ih hnil hrest h
      · cases k with
        | zero =>
          rw [← (Prod.mk.inj (Option.some_inj.mp h)).1]
          exact hcur
        | succ k => exact ih hnil hrest h
    · next hsep =>
        refine ih (fun d hd => ?_) hrest h
        rcases mem_append.mp hd with hd | hd
        · exact hcur d hd
        · rw [mem_singleton.mp hd]
          exact hs c mem_cons_self (Bool.eq_false_iff.mpr hsep)

theorem mem_entriesFrom {value entry : Text} :
    ∀ {fuel index : Nat}, entry ∈ entriesFrom value fuel index →
      ∀ c ∈ entry, isSeparator c = false ∧ c ∈ value := by
  intro fuel
  induction fuel with
  | zero =>
    intro index hmem
    exact absurd hmem not_mem_nil
  | succ fuel ih =>
    intro index hmem
    rw [entriesFrom] at hmem
    split at hmem
    · exact absurd hmem not_mem_nil
    split at hmem
    · exact absurd hmem not_mem_nil
    · next sub rest hsub =>
        rcases mem_cons.mp hmem with rfl | hmem
        · intro c hc
          have hbytes := @getSubFieldLoop_bytes isSeparator
            (fun c => !isSeparator c && decide (c ∈ value)) entry rest value [] index
            (fun d hd => absurd hd not_mem_nil)
            (fun d hd hsep => by simp [hsep, hd]) hsub c hc
          simpa using hbytes
        · exact ih hmem

theorem mem_entries {value entry : Text} (hmem : entry ∈ entries value) :
    ∀ c ∈ entry, isSeparator c = false ∧ c ∈ value := by
  rw [entries] at hmem
  split at hmem
  · exact absurd hmem not_mem_nil
  · exact mem_entriesFrom hmem

/-! ## The decision on what is due -/

theorem eventType_eq_self {eventField : Text}
    (hplain : ∀ c ∈ eventField, isBlank c = false ∧ c ≠ byte ';') :
    eventType eventField = eventField := by
  have htake : eventField.takeWhile (· != byte ';') = eventField :=
    takeWhile_eq_self_iff.mpr fun c hc => bne_iff_ne.mpr (hplain c hc).2
  rw [eventType, htake]
  exact trim_eq_self (fun c hc => (hplain c (mem_of_mem_head? hc)).1)
    fun c hc => (hplain c (mem_of_mem_getLast? hc)).1

/-- A request that is due is denied exactly when its event is listed. -/
theorem deny_iff_mem {p : SubscriptionAuth} {call : AuthCall} {request : SipMessage}
    {eventField : Text} (hdue : p.IsDue call request eventField) (reason : Text) :
    (p.authorizeAndModify call request reason).1 = .deny ↔
      eventField ∈ p.eventPackagesRequiringAuthentication := by
  have hrequires : p.requiresAuthentication call eventField =
      p.eventPackagesRequiringAuthentication.contains eventField := by
    rw [requiresAuthentication, hdue.undecided, hdue.unauthenticated, hdue.subscribe,
      hdue.notExempted]
    simp
  rw [authorizeAndModify, hdue.event]
  simp only
  rw [hrequires, ← contains_iff_mem]
  split
  · next hmem => exact ⟨fun _ => hmem, fun _ => rfl⟩
  · next hmem =>
      constructor
      · intro hdeny
        cases hdeny
      · intro h
        exact absurd h hmem

/-- **Which due subscriptions are denied**: those whose Event header stands in the list as it is.
Where the list has no parameters, the header must be nothing but the package. -/
theorem deny_iff (pcre : Pcre) (config : Config) {call : AuthCall} {request : SipMessage}
    {eventField : Text} (hdue : (readConfig pcre config).IsDue call request eventField)
    (reason : Text) :
    (((readConfig pcre config).authorizeAndModify call request reason).1 = .deny ↔
        eventField ∈ entries config.eventsRequiringAuthentication) ∧
      (byte ';' ∉ config.eventsRequiringAuthentication →
        (((readConfig pcre config).authorizeAndModify call request reason).1 = .deny ↔
          eventType eventField = eventField)) := by
  refine ⟨deny_iff_mem hdue reason, fun hplain => ?_⟩
  rw [deny_iff_mem hdue reason]
  constructor
  · intro hmem
    have hblank : ∀ c, isSeparator c = false → isBlank c = false := by decide +kernel
    refine eventType_eq_self fun c hc => ?_
    obtain ⟨hsep, hvalue⟩ := mem_entries hmem c hc
    exact ⟨hblank c hsep, fun heq => hplain (heq ▸ hvalue)⟩
  · intro hself
    exact hself ▸ hdue.listed

/-! ### The dialog events of a phone -/

/-- The package `dialog` needs an identity, and the target `~~id~park` does not. -/
def dialogConfig : Config where
  eventsRequiringAuthentication := text "dialog, message-summary"
  targetsExemptedFromAuthentication := text "^~~id~park$"

/-- Expressions are tested by the one that is configured. -/
def parkPcre : Pcre := fun _ _ => some fun s => s == text "~~id~park"

def subscribeCall : AuthCall where
  id := []
  requestUri := { userId := text "200", hostAddress := text "example.com" }
  method := text "SUBSCRIBE"
  priorResult := .continue
  bSpiralingRequest := false

/-- A subscription with such an Event header. -/
def subscribeTo (event : String) : SipMessage where
  firstHeaderLine := text "SUBSCRIBE sip:200@example.com SIP/2.0"
  nameValues := [(eventFieldName, text event)]

theorem deny_iff_dialog :
    ((readConfig parkPcre dialogConfig).authorizeAndModify subscribeCall (subscribeTo "dialog")
        []).1 = .deny := by
  have hdue : (readConfig parkPcre dialogConfig).IsDue subscribeCall (subscribeTo "dialog")
      (text "dialog") :=
    ⟨rfl, rfl, rfl, by decide, by decide, by decide⟩
  exact ((deny_iff parkPcre dialogConfig hdue []).2 (by decide)).mpr (by decide)

/-- The same subscription, with the parameter that tells it from another one. -/
theorem not_denied_dialog_id :
    (readConfig parkPcre dialogConfig).IsDue subscribeCall (subscribeTo "dialog;id=7")
        (text "dialog;id=7") ∧
      ((readConfig parkPcre dialogConfig).authorizeAndModify subscribeCall
        (subscribeTo "dialog;id=7") []).1 = .continue :=
  ⟨⟨rfl, rfl, rfl, by decide, by decide, by decide⟩, by decide⟩

end SubscriptionAuth

end SipXRouter
