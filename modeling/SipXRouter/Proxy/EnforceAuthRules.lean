import SipXRouter.Digitmaps.UrlMapping

/-!
# Enforcing authorization rules

`EnforceAuthRules` asks the rules document which permissions a call needs, and looks
for one of them among those of the caller.

## Design notes

The loop over the permissions of a `permissionMatch` goes by `Value` alone, which for a
comment is its text, and takes each node for an element: `ToElement` gives a null pointer
for others, from which the first child is then read.
-/

namespace SipXRouter.EnforceAuthRules

open List UrlMapping Search

/-! ## The permissions of a rule -/

/-- The loop over the nodes with the tag `permission`. -/
def permissionLoop : List XmlNode → Option (List Text)
  | [] => some []
  | n :: ns =>
    if n.isElement then
      match n.children with
      | [] => permissionLoop ns
      | t :: _ => (permissionLoop ns).map (t.value :: ·)
    else none

/-- What one `permissionMatch` gives: nothing if it names no permission. -/
def readPermissions (permissionMatch : XmlNode) : Option (Option (List Text)) :=
  (permissionLoop (permissionMatch.childrenNamed (text "permission"))).map fun names =>
    if names = [] then none else some names

def parsePermMatchContainer (userMatch : XmlNode) : Option (Option (List Text)) :=
  first readPermissions (userMatch.elementsNamed (text "permissionMatch"))

/-- `AuthRulesUrlMapping::getPermissionRequired`. -/
def getPermissionRequired (pcre : Pcre) (requestUri : Url) (doc : List XmlNode) :
    Option (List Text) :=
  match getUserMatchContainerMatchingRequestURI pcre requestUri doc with
  | none => none
  | some none => some []
  | some (some userMatch) => (parsePermMatchContainer userMatch).map (·.getD [])

/-! ## The decision -/

/-- `AuthResult`: `DENY`, `CONTINUE` and `ALLOW`. -/
inductive AuthResult where
  | deny | continues | allow
deriving DecidableEq

/-- Insertion into a `std::set` of strings. -/
def insertPermission (p : Text) : List Text → List Text
  | [] => [p]
  | q :: qs =>
    if p = q then q :: qs
    else if p < q then p :: q :: qs
    else q :: insertPermission p qs

/-- A list of names with a sign between them. -/
def appendName (sign : Char) (names name : Text) : Text :=
  (if names = [] then [] else names ++ [byte sign]) ++ name

/-- One round of the loop of `isAuthorized`: whether a permission was found, those found,
and those not found. -/
def authorizeRound (granted : List Text) (r : Bool × Text × Text) (permission : Text) :
    Bool × Text × Text :=
  if permission.map toLower = text "validuser" ∨ permission ∈ granted then
    (true, appendName '+' r.2.1 permission, r.2.2)
  else (r.1, r.2.1, appendName '|' r.2.2 permission)

/-- Whether an identity has what the set requires; no identity has nothing. -/
def isAuthorized (findByIdentity : Text → Option (List Text)) (id : Text)
    (requiredSet : List Text) : Bool × Text × Text :=
  if id = [] then (false, [], [])
  else
    match findByIdentity id with
    | none => (false, [], [])
    | some granted =>
      let required := (requiredSet.filter (· ≠ [])).foldl (fun set p => insertPermission p set) []
      if required = [] then (true, [], [])
      else required.foldl (authorizeRound granted) (false, [], [])

/-- What the plugin uses: the options of the router, the registrations, the rules if they
are loaded, and the permissions of the entities. -/
structure Plugin where
  trustSbcRegisteredCalls : Bool
  isRegisteredBinding : Url → Bool
  isRelayAllowed : Bool
  isLocalDomain : Url → Bool
  authorizationRules : Option (List XmlNode)
  findByIdentity : Text → Option (List Text)

/-- `authorizeAndModify`: the result and the reason. -/
def authorizeAndModify (pcre : Pcre) (p : Plugin) (id : Text) (requestUri : Url)
    (priorResult : AuthResult) (fromUri : Url) (spiralingRequest : Bool) (reason : Text) :
    Option (AuthResult × Text) :=
  if priorResult = .continues then
    if p.trustSbcRegisteredCalls && p.isRegisteredBinding requestUri then some (.allow, reason)
    else
      match p.authorizationRules with
      | none => some (.continues, reason)
      | some doc =>
        match getPermissionRequired pcre requestUri doc with
        | none => none
        | some [] =>
          if !p.isRelayAllowed && spiralingRequest && !p.isLocalDomain fromUri &&
              !p.isLocalDomain requestUri then
            some (.deny, reason)
          else some (.allow, reason)
        | some requiredPermissions =>
          if id = [] then some (.deny, reason)
          else
            let r := isAuthorized p.findByIdentity id requiredPermissions
            if r.1 then some (.allow, reason)
            else some (.deny, reason ++ text "Requires " ++ r.2.2)
  else some (.continues, reason)

/-! ## What it should be -/

/-- The permissions that a `permissionMatch` names. -/
def permissionNames (permissionMatch : XmlNode) : List Text :=
  (permissionMatch.childrenNamed (text "permission")).filterMap fun n =>
    n.children.head?.map XmlNode.value

/-- The permissions of the first `permissionMatch` of a rule that names any.  An empty text
is no permission. -/
def permissionsOf (rule : XmlNode) : List Text :=
  ((((rule.elementsNamed (text "permissionMatch")).map permissionNames).find? (· ≠ [])).getD
    []).filter (· ≠ [])

/-- The permissions that a call to a URI needs one of. -/
def requiredFor (pcre : Pcre) (requestUri : Url) (doc : List XmlNode) : List Text :=
  ((firstRule pcre requestUri doc).map permissionsOf).getD []

/-- The caller is known, has an entity record, and any user will do or one of the permissions
has been granted to it. -/
def Permitted (findByIdentity : Text → Option (List Text)) (id : Text) (required : List Text) :
    Prop :=
  id ≠ [] ∧ ∃ granted, findByIdentity id = some granted ∧
    ∃ permission ∈ required, permission.map toLower = text "validuser" ∨ permission ∈ granted

/-- **What the decision should be**, for the permissions that are required. -/
structure Enforced (rule : Option XmlNode) (required : List Text) (permitted : Prop)
    (result : Option AuthResult) : Prop where
  allow : result = some .allow → rule = none ∨ required = [] ∨ permitted
  deny : required ≠ [] → ¬ permitted → result = some .deny

/-! ## Reading the permissions -/

/-- What a `permissionMatch` names, if it names any. -/
def foundPermissions (permissionMatch : XmlNode) : Option (List Text) :=
  if permissionNames permissionMatch = [] then none else some (permissionNames permissionMatch)

theorem permissionLoop_eq (ns : List XmlNode) :
    permissionLoop ns =
      if ns.all XmlNode.isElement then
        some (ns.filterMap fun n => n.children.head?.map XmlNode.value)
      else none := by
  induction ns with
  | nil => rfl
  | cons n ns ih =>
    rw [permissionLoop, ih, all_cons, filterMap_cons]
    cases n.isElement with
    | false => rfl
    | true =>
      cases n.children with
      | nil => rfl
      | cons t ts => cases ns.all XmlNode.isElement <;> rfl

theorem reads_readPermissions :
    Reads (fun n => n.isElement = true) readPermissions foundPermissions
      (·.childrenNamed (text "permission")) where
  some_of := by
    intro permissionMatch hsound
    rw [readPermissions, permissionLoop_eq, if_pos (all_eq_true.mpr hsound)]
    rfl
  none_of := by
    rintro permissionMatch ⟨n, hn, hbad⟩
    have hall : ¬ (permissionMatch.childrenNamed (text "permission")).all XmlNode.isElement = true :=
      fun h => hbad (all_eq_true.mp h n hn)
    rw [readPermissions, permissionLoop_eq, if_neg hall]
    rfl

/-- The nodes that are taken for permissions of a rule. -/
def permissionNodes (rule : XmlNode) : List XmlNode :=
  visited (·.childrenNamed (text "permission")) foundPermissions
    (rule.elementsNamed (text "permissionMatch"))

/-- Nothing that is met on the way to the decision is in its way: PCRE takes each expression
that is tried, and each node taken for a permission is an element. -/
def Undisturbed (pcre : Pcre) (requestUri : Url) (doc : List XmlNode) : Prop :=
  (∀ e ∈ triedExpressions pcre requestUri doc, Accepted pcre e) ∧
    ∀ rule, firstRule pcre requestUri doc = some rule →
      ∀ n ∈ permissionNodes rule, n.isElement = true

theorem find?_permissionNames (permissionMatches : List XmlNode) :
    (permissionMatches.map permissionNames).find? (· ≠ []) =
      permissionMatches.findSome? foundPermissions := by
  induction permissionMatches with
  | nil => rfl
  | cons permissionMatch permissionMatches ih =>
    rw [map_cons, find?_cons, findSome?_cons, ih, foundPermissions]
    by_cases h : permissionNames permissionMatch = [] <;> simp [h]

/-- **The permissions read** are those of the rule. -/
theorem getPermissionRequired_of_undisturbed {pcre : Pcre} {requestUri : Url} {doc : List XmlNode}
    (h : Undisturbed pcre requestUri doc) :
    ∃ names, getPermissionRequired pcre requestUri doc = some names ∧
      names.filter (· ≠ []) = requiredFor pcre requestUri doc := by
  have hsearch := (reads_search pcre requestUri).some_of doc h.1
  rw [getPermissionRequired, hsearch, requiredFor]
  cases hrule : firstRule pcre requestUri doc with
  | none => exact ⟨[], rfl, rfl⟩
  | some rule =>
    have hread := reads_readPermissions.first.some_of _ (h.2 rule hrule)
    refine ⟨((rule.elementsNamed (text "permissionMatch")).findSome? foundPermissions).getD [],
      ?_, ?_⟩
    · dsimp only
      rw [parsePermMatchContainer, hread]
      rfl
    · rw [← find?_permissionNames]
      rfl

theorem getPermissionRequired_of_disturbed {pcre : Pcre} {requestUri : Url} {doc : List XmlNode}
    (h : ¬ Undisturbed pcre requestUri doc) : getPermissionRequired pcre requestUri doc = none := by
  by_cases hsound : ∀ e ∈ triedExpressions pcre requestUri doc, Accepted pcre e
  · have hsearch := (reads_search pcre requestUri).some_of doc hsound
    obtain ⟨rule, hrule, hnodes⟩ : ∃ rule, firstRule pcre requestUri doc = some rule ∧
        ∃ n ∈ permissionNodes rule, ¬ n.isElement = true := by
      by_contra hnone
      refine h ⟨hsound, fun rule hrule n hn => ?_⟩
      by_contra hbad
      exact hnone ⟨rule, hrule, n, hn, hbad⟩
    rw [getPermissionRequired, hsearch, hrule]
    dsimp only
    rw [parsePermMatchContainer, reads_readPermissions.first.none_of _ hnodes]
    rfl
  · have hbad : ∃ e ∈ triedExpressions pcre requestUri doc, ¬ Accepted pcre e := by
      simpa only [not_forall, exists_prop] using hsound
    rw [getPermissionRequired, (reads_search pcre requestUri).none_of doc hbad]

/-! ## The permissions of the caller -/

theorem mem_insertPermission {p q : Text} {qs : List Text} :
    p ∈ insertPermission q qs ↔ p = q ∨ p ∈ qs := by
  induction qs with
  | nil => simp [insertPermission]
  | cons r qs ih =>
    rw [insertPermission]
    split
    · next heq => simp [heq]
    · split
      · simp
      · rw [mem_cons, ih, mem_cons]
        exact or_left_comm

theorem mem_foldl_insertPermission {p : Text} (ps qs : List Text) :
    p ∈ ps.foldl (fun set p => insertPermission p set) qs ↔ p ∈ ps ∨ p ∈ qs := by
  induction ps generalizing qs with
  | nil => simp
  | cons q ps ih =>
    rw [foldl_cons, ih, mem_insertPermission, mem_cons]
    tauto

theorem authorized_foldl (granted ps : List Text) (r : Bool × Text × Text) :
    (ps.foldl (authorizeRound granted) r).1 = true ↔ r.1 = true ∨
      ∃ p ∈ ps, p.map toLower = text "validuser" ∨ p ∈ granted := by
  induction ps generalizing r with
  | nil => simp
  | cons p ps ih =>
    rw [foldl_cons, ih, authorizeRound]
    by_cases h : p.map toLower = text "validuser" ∨ p ∈ granted <;> simp [h]

/-- `isAuthorized` for permissions that are not all empty. -/
theorem isAuthorized_iff {findByIdentity : Text → Option (List Text)} {id : Text}
    {names : List Text} (hne : names.filter (· ≠ []) ≠ []) :
    (isAuthorized findByIdentity id names).1 = true ↔
      Permitted findByIdentity id (names.filter (· ≠ [])) := by
  unfold isAuthorized Permitted
  by_cases hid : id = []
  · simp [hid]
  · rw [if_neg hid]
    cases findByIdentity id with
    | none => simp
    | some granted =>
      dsimp only
      have hset : (names.filter (· ≠ [])).foldl (fun set p => insertPermission p set) [] ≠ [] := by
        obtain ⟨p, ps, hps⟩ := exists_cons_of_ne_nil hne
        refine ne_nil_of_mem (a := p) ?_
        rw [mem_foldl_insertPermission, hps]
        simp
      rw [if_neg hset, authorized_foldl]
      simp only [mem_foldl_insertPermission, not_mem_nil, or_false, Bool.false_eq_true,
        false_or, ne_eq, hid, not_false_eq_true, true_and, Option.some.injEq, exists_eq_left']

/-! ## The decision is what it should be -/

section Decision

variable (pcre : Pcre) (p : Plugin) (doc : List XmlNode) (id : Text) (requestUri fromUri : Url)
  (spiralingRequest : Bool) (reason : Text)

/-- The result without the reason. -/
def decision : Option AuthResult :=
  (authorizeAndModify pcre p id requestUri .continues fromUri spiralingRequest reason).map Prod.fst

variable {p doc id requestUri}

theorem decision_of_required (hrules : p.authorizationRules = some doc)
    (hexempt : (p.trustSbcRegisteredCalls && p.isRegisteredBinding requestUri) = false)
    {names : List Text} (hnames : getPermissionRequired pcre requestUri doc = some names)
    (hne : names ≠ []) : decision pcre p id requestUri fromUri spiralingRequest reason =
      some (if (isAuthorized p.findByIdentity id names).1 then .allow else .deny) := by
  obtain ⟨name, rest, rfl⟩ := exists_cons_of_ne_nil hne
  rw [decision, authorizeAndModify, if_pos rfl, hexempt, hrules]
  simp only [Bool.false_eq_true, if_false, hnames]
  by_cases hid : id = []
  · simp [hid, isAuthorized]
  · rw [if_neg hid]
    split <;> rfl

theorem decision_of_none (hrules : p.authorizationRules = some doc)
    (hexempt : (p.trustSbcRegisteredCalls && p.isRegisteredBinding requestUri) = false)
    (hnone : getPermissionRequired pcre requestUri doc = none) :
    decision pcre p id requestUri fromUri spiralingRequest reason = none := by
  rw [decision, authorizeAndModify, if_pos rfl, hexempt, hrules]
  simp [hnone]

variable (id)

/-- **When the rules are enforced.**  With rules loaded and no exemption for registered
bindings, a call is allowed only if no permission is required or the caller has one, and
denied if permissions are required and the caller has none of them, exactly when in the
latter case nothing is in the way of the decision. -/
theorem enforced_iff (hrules : p.authorizationRules = some doc)
    (hexempt : (p.trustSbcRegisteredCalls && p.isRegisteredBinding requestUri) = false) :
    Enforced (firstRule pcre requestUri doc) (requiredFor pcre requestUri doc)
        (Permitted p.findByIdentity id (requiredFor pcre requestUri doc))
        (decision pcre p id requestUri fromUri spiralingRequest reason) ↔
      (requiredFor pcre requestUri doc ≠ [] →
        ¬ Permitted p.findByIdentity id (requiredFor pcre requestUri doc) →
        Undisturbed pcre requestUri doc) := by
  by_cases hundisturbed : Undisturbed pcre requestUri doc
  · refine iff_of_true ?_ fun _ _ => hundisturbed
    obtain ⟨names, hnames, hrequired⟩ := getPermissionRequired_of_undisturbed hundisturbed
    by_cases hne : requiredFor pcre requestUri doc = []
    · exact ⟨fun _ => Or.inr (Or.inl hne), fun h => absurd hne h⟩
    · rw [← hrequired] at hne ⊢
      have hsome : names ≠ [] := by
        rintro rfl
        exact hne rfl
      rw [decision_of_required pcre fromUri spiralingRequest reason hrules hexempt hnames hsome]
      constructor
      · intro hallow
        by_cases hauthorized : (isAuthorized p.findByIdentity id names).1 = true
        · exact Or.inr (Or.inr ((isAuthorized_iff hne).mp hauthorized))
        · rw [if_neg hauthorized] at hallow
          exact absurd (Option.some.inj hallow) (by decide)
      · intro _ hpermitted
        rw [if_neg fun h => hpermitted ((isAuthorized_iff hne).mp h)]
  · have hnone := getPermissionRequired_of_disturbed hundisturbed
    rw [decision_of_none pcre fromUri spiralingRequest reason hrules hexempt hnone]
    constructor
    · intro h hne hpermitted
      exact absurd (h.deny hne hpermitted) (by simp)
    · intro h
      refine ⟨fun hallow => absurd hallow (by simp), fun hne hpermitted => ?_⟩
      exact absurd (h hne hpermitted) hundisturbed

end Decision

/-! ### Examples -/

def textElement (tag value : String) : XmlNode := .element (text tag) [] [.text (text value)]

/-- Long distance calls through a gateway, with these nodes in the `permissionMatch`. -/
def gatewayRules (permissions : List XmlNode) : List XmlNode :=
  [.element (text "mappings") []
    [.element (text "hostMatch") []
      [textElement "hostPattern" "gw.example.com",
        .element (text "userMatch") []
          [textElement "userPattern" "1x.",
            .element (text "permissionMatch") [] permissions]]]]

/-- A router with rules and one user, who may call mobile phones. -/
def gatewayPlugin (permissions : List XmlNode) : Plugin where
  trustSbcRegisteredCalls := false
  isRegisteredBinding := fun _ => false
  isRelayAllowed := true
  isLocalDomain := fun _ => true
  authorizationRules := some (gatewayRules permissions)
  findByIdentity := fun id => if id = text "a@example.com" then some [text "Mobile"] else none

/-- A number behind the gateway. -/
def gatewayUri : Url := { userId := text "1234", hostAddress := text "gw.example.com" }

/-- The test of `^1(..*)$`, which is all that PCRE is asked for here. -/
def gatewayPcre : Pcre := fun _ _ => some fun s => s.take 1 == text "1" && decide (2 ≤ s.length)

def longDistance : List XmlNode := [textElement "permission" "LongDistance"]

def commentedLongDistance : List XmlNode := .comment (text "permission") :: longDistance

/-- The caller does not have it. -/
theorem not_permitted_longDistance (permissions : List XmlNode) :
    ¬ Permitted (gatewayPlugin permissions).findByIdentity (text "a@example.com")
      [text "LongDistance"] := by
  rintro ⟨-, granted, hgranted, permission, hmem, hcase⟩
  have hmobile : granted = [text "Mobile"] := by
    simpa [gatewayPlugin] using hgranted.symm
  subst hmobile
  rw [mem_singleton.mp hmem] at hcase
  revert hcase
  decide

/-- A call that needs a permission the caller does not have is denied. -/
theorem gatewayCall_denied :
    requiredFor gatewayPcre gatewayUri (gatewayRules longDistance) = [text "LongDistance"] ∧
      Enforced (firstRule gatewayPcre gatewayUri (gatewayRules longDistance))
        (requiredFor gatewayPcre gatewayUri (gatewayRules longDistance))
        (Permitted (gatewayPlugin longDistance).findByIdentity (text "a@example.com")
          (requiredFor gatewayPcre gatewayUri (gatewayRules longDistance)))
        (decision gatewayPcre (gatewayPlugin longDistance) (text "a@example.com") gatewayUri {} false
          []) := by
  refine ⟨by decide, ?_⟩
  refine (enforced_iff gatewayPcre (text "a@example.com") {} false [] rfl rfl).mpr fun _ _ => ?_
  have hnodes : ∀ rule ∈ firstRule gatewayPcre gatewayUri (gatewayRules longDistance),
      ∀ n ∈ permissionNodes rule, n.isElement = true := by decide
  exact ⟨by decide, fun rule hrule => hnodes rule hrule⟩

/-- With a comment that reads `permission` in front, the call does not return. -/
theorem commentedCall_not_enforced :
    ¬ Enforced (firstRule gatewayPcre gatewayUri (gatewayRules commentedLongDistance))
      (requiredFor gatewayPcre gatewayUri (gatewayRules commentedLongDistance))
      (Permitted (gatewayPlugin commentedLongDistance).findByIdentity (text "a@example.com")
        (requiredFor gatewayPcre gatewayUri (gatewayRules commentedLongDistance)))
      (decision gatewayPcre (gatewayPlugin commentedLongDistance) (text "a@example.com") gatewayUri
        {} false []) := by
  have hrequired : requiredFor gatewayPcre gatewayUri (gatewayRules commentedLongDistance) =
      [text "LongDistance"] := by decide
  have hnone : decision gatewayPcre (gatewayPlugin commentedLongDistance) (text "a@example.com")
      gatewayUri {} false [] = none := by decide
  rw [hrequired, hnone]
  intro h
  exact absurd (h.deny (by simp) (not_permitted_longDistance _)) (by simp)

end SipXRouter.EnforceAuthRules
