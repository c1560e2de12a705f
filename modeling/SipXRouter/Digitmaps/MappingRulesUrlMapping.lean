import SipXRouter.Digitmaps.UrlTransform

/-!
# Permissions of a mapping rule

The `userMatch` that applies has `permissionMatch` elements.  They are run in order until the
transforms of one give a contact; an element that asks for permissions names them.

## Design notes

* The rows are numbered by the child of the `userMatch` that they came from, and are those that
  are added to the sets of the caller.
* The digits that PCRE captures are a parameter.
-/

namespace SipXRouter

open List

variable {children ns : List XmlNode} {k : Nat} {n : XmlNode} {s : Mapped}

namespace UrlMapping

/-- One permission as the mapping hands it out. -/
structure PermissionRow where
  identity : Text
  permission : Text
deriving DecidableEq

/-- What the loop leaves. -/
structure Mapped where
  contacts : List (Nat × ContactRow) := []
  permissions : List (Nat × PermissionRow) := []
  callTag : Text := text "UNK"
  bPermissionFound : Bool := false
  succeeded : Bool := false
deriving DecidableEq

/-- The texts of the `permission` nodes.  One that is no element has no children to look at. -/
def permissionNames (m : XmlNode) : Option (List Text) :=
  let nodes := m.childrenNamed (text "permission")
  if nodes.all (·.isElement) then
    some (nodes.filterMap fun n => n.children.head?.map XmlNode.value)
  else none

/-- `bPermNodePresent`. -/
def asksForPermission (m : XmlNode) : Bool := !(m.childrenNamed (text "permission")).isEmpty

/-- The text of a node without that of the elements in it. -/
def textContentShallow (n : XmlNode) : Text :=
  n.children.flatMap fun
    | .text value => value
    | _ => []

def isPermissionMatch (n : XmlNode) : Bool := n.isElement && n.value == text "permissionMatch"

section

variable (junk : Byte) (r : Replacements) (requestUri : Url) (vdigits : Text)

/-- The contacts that the transforms of an element give, in order, and whether there is one. -/
def given (m : XmlNode) : Option (List ContactRow × Bool) :=
  doTransform junk r requestUri vdigits [] m

/-- The row of a permission for the identity of the request. -/
def permissionRow (permission : Text) : PermissionRow where
  identity := requestUri.toString junk
  permission := permission

/-- One child of the `userMatch`, with its number. -/
def parseChild (k : Nat) (s : Mapped) (n : XmlNode) : Option Mapped :=
  if isPermissionMatch n then
    (permissionNames n).bind fun names =>
      let s := { s with
        permissions := s.permissions ++ names.map fun p => (k, permissionRow junk requestUri p)
        bPermissionFound := s.bPermissionFound || !names.isEmpty }
      if !asksForPermission n || s.bPermissionFound then
        (given junk r requestUri vdigits n).map fun found =>
          { s with
            contacts := s.contacts ++ found.1.map fun c => (k, c)
            succeeded := found.2 }
      else some s
  else if n.isElement ∧ n.value = text "callTag" then
    some { s with callTag := textContentShallow n }
  else some s

/-- The loop over the children, from a number on. -/
def parseChildren (k : Nat) (s : Mapped) : List XmlNode → Option Mapped
  | [] => some s
  | n :: ns =>
    if s.succeeded then some s
    else (parseChild junk r requestUri vdigits k s n).bind fun s => parseChildren (k + 1) s ns

/-- `MappingRulesUrlMapping::parsePermMatchContainer`. -/
def parsePermMatchContainer (userMatch : XmlNode) : Option Mapped :=
  parseChildren junk r requestUri vdigits 0 {} userMatch.children

/-- What PCRE captures with the pattern of a `userMatch` that matched. -/
def variableDigits (pcre : Pcre) (captured : Text → Text → Text) (userMatch : XmlNode) : Text :=
  (((userMatch.childrenNamed (text "userPattern")).find? fun n =>
    userPatternTest pcre requestUri n == some true).bind fun n =>
      n.content.bind convertRegularExpression).elim [] fun expression =>
        captured expression requestUri.userId

/-- `MappingRulesUrlMapping::getContactList`: no result is an exception or a fault. -/
def getContactList (pcre : Pcre) (captured : Text → Text → Text) (doc : List XmlNode) :
    Option (Option Mapped) :=
  (getUserMatchContainerMatchingRequestURI pcre requestUri doc).bind fun found =>
    found.elim (some none) fun userMatch =>
      (parsePermMatchContainer junk r requestUri (variableDigits requestUri pcre captured userMatch)
        userMatch).map some

/-! ## What should be given -/

/-- An element that asks for no permission, or names one. -/
def Owns (m : XmlNode) : Prop :=
  isPermissionMatch m = true ∧ (asksForPermission m = false ∨ permissionNames m ≠ some [])

/-- The transforms of an element give contacts. -/
def Gives (m : XmlNode) (contacts : List ContactRow) : Prop :=
  contacts ≠ [] ∧ given junk r requestUri vdigits m = some (contacts, true)

/-- **From one**: contacts and permissions are those of the first element that gives contacts
and asks for no permission or names one. -/
def FromOne (children : List XmlNode) (s : Mapped) : Prop :=
  ∃ before m after contacts names, children = before ++ m :: after ∧ Owns m ∧
    Gives junk r requestUri vdigits m contacts ∧
    (∀ b ∈ before, Owns b → ∀ contacts, ¬ Gives junk r requestUri vdigits b contacts) ∧
    s.contacts = contacts.map (fun c => (before.length, c)) ∧ permissionNames m = some names ∧
    s.permissions = names.map fun p => (before.length, permissionRow junk requestUri p)

/-- An element that is passed over, and one that is run without a contact. -/
def Fruitless (m : XmlNode) : Prop :=
  isPermissionMatch m = true → (permissionNames m).isSome = true ∧
    given junk r requestUri vdigits m = some ([], false)

/-- What stands in front of the first element that names a permission. -/
def Silent (m : XmlNode) : Prop :=
  isPermissionMatch m = true → permissionNames m = some [] ∧
    (asksForPermission m = false → given junk r requestUri vdigits m = some ([], false))

/-- Some element gives contacts, and those in front of it none. -/
def GivesLater (ns : List XmlNode) : Prop :=
  ∃ between last after, ns = between ++ last :: after ∧
    (∀ b ∈ between, Fruitless junk r requestUri vdigits b) ∧ isPermissionMatch last = true ∧
    (permissionNames last).isSome = true ∧ ∃ contacts, Gives junk r requestUri vdigits last contacts

/-- **Mixed up**: an element names a permission and gives no contact, none in front of it
gives one, and one behind it does. -/
def MixedUp (children : List XmlNode) : Prop :=
  ∃ before m rest, children = before ++ m :: rest ∧
    (∀ b ∈ before, Silent junk r requestUri vdigits b) ∧
    isPermissionMatch m = true ∧ permissionNames m ≠ some [] ∧
    Fruitless junk r requestUri vdigits m ∧ GivesLater junk r requestUri vdigits rest

/-- Where contacts come from one element, all in front of it being silent. -/
def GivenByOne (k : Nat) (ns : List XmlNode) (s s' : Mapped) : Prop :=
  ∃ before m after contacts names, ns = before ++ m :: after ∧ Owns m ∧
    Gives junk r requestUri vdigits m contacts ∧
    (∀ b ∈ before, Silent junk r requestUri vdigits b) ∧
    s'.contacts = s.contacts ++ contacts.map (fun c => (k + before.length, c)) ∧
    permissionNames m = some names ∧
    s'.permissions = s.permissions ++
      names.map fun p => (k + before.length, permissionRow junk requestUri p)

end

/-! ## The loop -/

section Loop

variable {junk : Byte} {r : Replacements} {requestUri : Url} {vdigits : Text}

/-- An element that is run fails, gives nothing, or gives contacts. -/
theorem given_cases (m : XmlNode) : given junk r requestUri vdigits m = none ∨
    given junk r requestUri vdigits m = some ([], false) ∨
      ∃ contacts, Gives junk r requestUri vdigits m contacts := by
  cases h : given junk r requestUri vdigits m with
  | none => exact .inl rfl
  | some found =>
    have hstatus : found.2 = !found.1.isEmpty :=
      doTransforms_status junk requestUri vdigits (m := r.symbols requestUri) rfl h
    obtain ⟨contacts, status⟩ := found
    cases contacts with
    | nil =>
      obtain rfl : status = false := hstatus
      exact .inr (.inl rfl)
    | cons c cs =>
      obtain rfl : status = true := hstatus
      exact .inr (.inr ⟨c :: cs, cons_ne_nil c cs, h⟩)

theorem parseChildren_of_succeeded (hs : s.succeeded = true)
    (ns : List XmlNode) : parseChildren junk r requestUri vdigits k s ns = some s := by
  cases ns with
  | nil => rfl
  | cons n ns => rw [parseChildren, if_pos hs]

/-- A child that is no `permissionMatch` leaves all but the tag. -/
theorem parseChild_other (hn : ¬ isPermissionMatch n = true) (k : Nat) (s : Mapped) :
    ∃ tag, parseChild junk r requestUri vdigits k s n = some { s with callTag := tag } := by
  rw [parseChild, if_neg hn]
  split
  · exact ⟨textContentShallow n, rfl⟩
  · exact ⟨s.callTag, rfl⟩

theorem parseChild_run (hn : isPermissionMatch n = true) {names : List Text}
    (hnames : permissionNames n = some names) (k : Nat)
    (hrun : asksForPermission n = false ∨ s.bPermissionFound = true ∨ names ≠ []) :
    parseChild junk r requestUri vdigits k s n =
      (given junk r requestUri vdigits n).map fun found =>
        { s with
          permissions := s.permissions ++ names.map fun p => (k, permissionRow junk requestUri p)
          bPermissionFound := s.bPermissionFound || !names.isEmpty
          contacts := s.contacts ++ found.1.map fun c => (k, c)
          succeeded := found.2 } := by
  have hcond : (!asksForPermission n || (s.bPermissionFound || !names.isEmpty)) = true := by
    rcases hrun with h | h | h <;> simp [h]
  rw [parseChild, if_pos hn, hnames, Option.bind_some]
  exact if_pos hcond

theorem parseChild_skipped (hn : isPermissionMatch n = true)
    (hnames : permissionNames n = some []) (hasks : asksForPermission n = true) (k : Nat)
    (hs : s.bPermissionFound = false) :
    parseChild junk r requestUri vdigits k s n = some s := by
  obtain ⟨contacts, permissions, callTag, found, succeeded⟩ := s
  obtain rfl : found = false := hs
  simp [parseChild, hn, hnames, hasks]

/-- **Behind an element that named a permission**: success comes from the first element that
gives contacts. -/
theorem exists_of_found {s' : Mapped} (hs : s.succeeded = false)
    (hfound : s.bPermissionFound = true)
    (hrun : parseChildren junk r requestUri vdigits k s ns = some s') (hs' : s'.succeeded = true) :
    GivesLater junk r requestUri vdigits ns := by
  induction ns generalizing k s with
  | nil =>
    rw [parseChildren, Option.some_inj] at hrun
    rw [← hrun, hs] at hs'
    exact absurd hs' (by decide)
  | cons n ns ih =>
    rw [parseChildren, if_neg (by rw [hs]; decide)] at hrun
    obtain ⟨s₁, hstep, hrest⟩ := Option.bind_eq_some_iff.mp hrun
    have hnext (hs₁ : s₁.succeeded = false) (hfound₁ : s₁.bPermissionFound = true)
        (hn : Fruitless junk r requestUri vdigits n) :
        GivesLater junk r requestUri vdigits (n :: ns) := by
      obtain ⟨between, last, after, rfl, hbetween, hlast⟩ := ih hs₁ hfound₁ hrest
      exact ⟨n :: between, last, after, rfl, forall_mem_cons.mpr ⟨hn, hbetween⟩, hlast⟩
    by_cases hn : isPermissionMatch n = true
    swap
    · obtain ⟨tag, htag⟩ := parseChild_other hn k s
      obtain rfl := Option.some_inj.mp (htag.symm.trans hstep)
      exact hnext hs hfound fun h => absurd h hn
    obtain hnames | ⟨names, hnames⟩ := (permissionNames n).eq_none_or_eq_some
    · rw [parseChild, if_pos hn, hnames] at hstep
      exact absurd hstep (by simp)
    rw [parseChild_run hn hnames k (.inr (.inl hfound))] at hstep
    obtain hnone | hnothing | ⟨contacts, hgives⟩ := given_cases n
    · rw [hnone] at hstep
      exact absurd hstep (by simp)
    · rw [hnothing, Option.map_some, Option.some_inj] at hstep
      subst hstep
      exact hnext rfl (by simp [hfound]) fun _ => ⟨by rw [hnames]; rfl, hnothing⟩
    · exact ⟨[], n, ns, rfl, by simp, hn, by rw [hnames]; rfl, contacts, hgives⟩

theorem GivenByOne.cons {n : XmlNode} {ns : List XmlNode} {k : Nat} {s s₁ s' : Mapped}
    (hn : Silent junk r requestUri vdigits n) (hcontacts : s₁.contacts = s.contacts)
    (hpermissions : s₁.permissions = s.permissions)
    (h : GivenByOne junk r requestUri vdigits (k + 1) ns s₁ s') :
    GivenByOne junk r requestUri vdigits k (n :: ns) s s' := by
  obtain ⟨before, m, after, contacts, names, rfl, howns, hgives, hsilent, hc, hnames, hp⟩ := h
  refine ⟨n :: before, m, after, contacts, names, rfl, howns, hgives,
    forall_mem_cons.mpr ⟨hn, hsilent⟩, ?_, hnames, ?_⟩
  · rw [hc, hcontacts, length_cons, Nat.add_right_comm, Nat.add_assoc]
  · rw [hp, hpermissions, length_cons, Nat.add_right_comm, Nat.add_assoc]

/-- **In front of all elements that name a permission**: success comes from one element, or
the lists are mixed up. -/
theorem givenByOne_or_mixedUp {s' : Mapped}
    (hs : s.succeeded = false) (hfound : s.bPermissionFound = false)
    (hrun : parseChildren junk r requestUri vdigits k s ns = some s') (hs' : s'.succeeded = true) :
    GivenByOne junk r requestUri vdigits k ns s s' ∨ MixedUp junk r requestUri vdigits ns := by
  induction ns generalizing k s with
  | nil =>
    rw [parseChildren, Option.some_inj] at hrun
    rw [← hrun, hs] at hs'
    exact absurd hs' (by decide)
  | cons n ns ih =>
    rw [parseChildren, if_neg (by rw [hs]; decide)] at hrun
    obtain ⟨s₁, hstep, hrest⟩ := Option.bind_eq_some_iff.mp hrun
    have hnext (hn : Silent junk r requestUri vdigits n) (hs₁ : s₁.succeeded = false)
        (hfound₁ : s₁.bPermissionFound = false) (hcontacts : s₁.contacts = s.contacts)
        (hpermissions : s₁.permissions = s.permissions) :
        GivenByOne junk r requestUri vdigits k (n :: ns) s s' ∨
          MixedUp junk r requestUri vdigits (n :: ns) := by
      obtain hone | ⟨before, m, rest, rfl, hsilent, hmixed⟩ := ih hs₁ hfound₁ hrest
      · exact .inl (hone.cons hn hcontacts hpermissions)
      · exact .inr ⟨n :: before, m, rest, rfl, forall_mem_cons.mpr ⟨hn, hsilent⟩, hmixed⟩
    by_cases hn : isPermissionMatch n = true
    swap
    · obtain ⟨tag, htag⟩ := parseChild_other hn k s
      obtain rfl := Option.some_inj.mp (htag.symm.trans hstep)
      exact hnext (fun h => absurd h hn) hs hfound rfl rfl
    obtain hnames | ⟨names, hnames⟩ := (permissionNames n).eq_none_or_eq_some
    · rw [parseChild, if_pos hn, hnames] at hstep
      exact absurd hstep (by simp)
    by_cases hruns : asksForPermission n = false ∨ names ≠ []
    swap
    · -- an element that asks for permissions and names none
      obtain ⟨hasks, rfl⟩ : asksForPermission n = true ∧ names = [] := by simpa using hruns
      rw [parseChild_skipped hn hnames hasks k hfound, Option.some_inj] at hstep
      subst hstep
      refine hnext (fun _ => ⟨hnames, fun h => ?_⟩) hs hfound rfl rfl
      rw [hasks] at h
      exact absurd h (by decide)
    rw [parseChild_run hn hnames k (hruns.imp_right .inr)] at hstep
    obtain hnone | hnothing | ⟨contacts, hgives⟩ := given_cases n
    · rw [hnone] at hstep
      exact absurd hstep (by simp)
    · rw [hnothing, Option.map_some, Option.some_inj] at hstep
      subst hstep
      cases names with
      | nil =>
        refine hnext (fun _ => ⟨hnames, fun _ => hnothing⟩) rfl ?_ ?_ ?_
        · simp [hfound]
        · simp
        · simp
      | cons p ps =>
        have hlater := exists_of_found rfl (by simp) hrest hs'
        refine .inr ⟨[], n, ns, rfl, by simp, hn, ?_, fun _ => ⟨?_, hnothing⟩, hlater⟩
        · rw [hnames]
          simp
        · rw [hnames]
          rfl
    · rw [hgives.2, Option.map_some, Option.some_inj] at hstep
      subst hstep
      rw [parseChildren_of_succeeded rfl, Option.some_inj] at hrest
      subst hrest
      refine .inl ⟨[], n, ns, contacts, names, rfl, ⟨hn, ?_⟩, hgives, by simp, ?_, hnames, ?_⟩
      · rw [hnames]
        exact hruns.imp_right fun h heq => h (Option.some_inj.mp heq)
      · simp
      · simp

/-! ### Mixed up -/

/-- Elements that give nothing leave only their call tag behind. -/
theorem parseChildren_silent {before : List XmlNode}
    (hs : s.succeeded = false) (hfound : s.bPermissionFound = false)
    (hsilent : ∀ b ∈ before, Silent junk r requestUri vdigits b) (ns : List XmlNode) :
    ∃ tag, parseChildren junk r requestUri vdigits k s (before ++ ns) =
      parseChildren junk r requestUri vdigits (k + before.length) { s with callTag := tag } ns := by
  induction before generalizing k s with
  | nil => exact ⟨s.callTag, rfl⟩
  | cons n before ih =>
    obtain ⟨hn, hbefore⟩ := forall_mem_cons.mp hsilent
    have hstep : ∃ tag, parseChild junk r requestUri vdigits k s n =
        some { s with callTag := tag } := by
      by_cases hmatch : isPermissionMatch n = true
      swap
      · exact parseChild_other hmatch k s
      obtain ⟨hnames, hgiven⟩ := hn hmatch
      refine ⟨s.callTag, ?_⟩
      by_cases hasks : asksForPermission n = true
      · exact parseChild_skipped hmatch hnames hasks k hfound
      · rw [Bool.not_eq_true] at hasks
        rw [parseChild_run hmatch hnames k (.inl hasks), hgiven hasks, Option.map_some]
        simp [hs]
    obtain ⟨tag, htag⟩ := hstep
    obtain ⟨tag', hrest⟩ := ih (k := k + 1) (s := { s with callTag := tag }) hs hfound hbefore
    refine ⟨tag', ?_⟩
    rw [cons_append, parseChildren, if_neg (by rw [hs]; decide), htag, Option.bind_some,
      hrest, length_cons, Nat.add_right_comm, Nat.add_assoc]

/-- What was found before stays in front of what later elements add. -/
theorem parseChildren_found (h : GivesLater junk r requestUri vdigits ns) (hs : s.succeeded = false)
    (hfound : s.bPermissionFound = true) :
    ∃ s' i c contacts permissions, parseChildren junk r requestUri vdigits k s ns = some s' ∧
      s'.succeeded = true ∧ k ≤ i ∧ s'.contacts = s.contacts ++ (i, c) :: contacts ∧
      s'.permissions = s.permissions ++ permissions := by
  obtain ⟨between, last, after, rfl, hfruitless, hlast, hnames, contacts, hgives⟩ := h
  obtain ⟨names, hnames⟩ := Option.isSome_iff_exists.mp hnames
  induction between generalizing k s with
  | nil =>
    obtain ⟨c, cs, rfl⟩ := exists_cons_of_ne_nil hgives.1
    refine ⟨{ s with
      permissions := s.permissions ++ names.map fun p => (k, permissionRow junk requestUri p)
      bPermissionFound := s.bPermissionFound || !names.isEmpty
      contacts := s.contacts ++ (c :: cs).map fun c => (k, c)
      succeeded := true }, k, c, cs.map fun c => (k, c),
      names.map fun p => (k, permissionRow junk requestUri p), ?_, rfl, le_refl k, rfl, rfl⟩
    rw [nil_append, parseChildren, if_neg (by rw [hs]; decide),
      parseChild_run hlast hnames k (.inr (.inl hfound)), hgives.2, Option.map_some,
      Option.bind_some, parseChildren_of_succeeded rfl]
  | cons n between ih =>
    obtain ⟨hn, hbetween⟩ := forall_mem_cons.mp hfruitless
    have hstep : ∃ s₁ added, parseChild junk r requestUri vdigits k s n = some s₁ ∧
        s₁.succeeded = false ∧ s₁.bPermissionFound = true ∧ s₁.contacts = s.contacts ∧
        s₁.permissions = s.permissions ++ added := by
      by_cases hmatch : isPermissionMatch n = true
      swap
      · obtain ⟨tag, htag⟩ := parseChild_other hmatch k s
        exact ⟨_, [], htag, hs, hfound, rfl, (append_nil _).symm⟩
      obtain ⟨hsome, hgiven⟩ := hn hmatch
      obtain ⟨names, hnames⟩ := Option.isSome_iff_exists.mp hsome
      have hstep : parseChild junk r requestUri vdigits k s n = _ :=
        parseChild_run hmatch hnames k (.inr (.inl hfound))
      rw [hgiven, Option.map_some] at hstep
      refine ⟨_, names.map fun p => (k, permissionRow junk requestUri p), hstep, rfl, ?_, ?_, rfl⟩
      · simp [hfound]
      · simp
    obtain ⟨s₁, added, hstep, hs₁, hfound₁, hcontacts, hpermissions⟩ := hstep
    obtain ⟨s', i, c, cs, permissions, hrest, hs', hi, hc, hp⟩ :=
      ih (k := k + 1) hs₁ hfound₁ hbetween
    refine ⟨s', i, c, cs, added ++ permissions, ?_, hs', by omega, ?_, ?_⟩
    · rw [cons_append, parseChildren, if_neg (by rw [hs]; decide), hstep, Option.bind_some,
        hrest]
    · rw [hc, hcontacts]
    · rw [hp, hpermissions, append_assoc]

theorem FromOne.eq (h : FromOne junk r requestUri vdigits children s) :
    ∀ p ∈ s.permissions, ∀ c ∈ s.contacts, p.1 = c.1 := by
  obtain ⟨before, m, after, contacts, names, -, -, -, -, hcontacts, -, hpermissions⟩ := h
  intro p hp c hc
  rw [hpermissions] at hp
  rw [hcontacts] at hc
  obtain ⟨-, -, rfl⟩ := mem_map.mp hp
  obtain ⟨-, -, rfl⟩ := mem_map.mp hc
  rfl

theorem GivenByOne.fromOne (h : GivenByOne junk r requestUri vdigits 0 children {} s) :
    FromOne junk r requestUri vdigits children s := by
  obtain ⟨before, m, after, contacts, names, rfl, howns, hgives, hsilent, hc, hnames, hp⟩ := h
  rw [Nat.zero_add, nil_append] at hc hp
  refine ⟨before, m, after, contacts, names, rfl, howns, hgives, ?_, hc, hnames, hp⟩
  intro b hb hownsb contacts' hgivesb
  obtain ⟨hnone, hgiven⟩ := hsilent b hb hownsb.1
  have hnothing := hgiven (hownsb.2.resolve_right fun h => h hnone)
  rw [hgivesb.2] at hnothing
  exact absurd hnothing (by simp)

theorem exists_mixed (h : MixedUp junk r requestUri vdigits children) :
    ∃ s, parseChildren junk r requestUri vdigits 0 {} children = some s ∧ s.succeeded = true ∧
      ∃ p ∈ s.permissions, ∃ c ∈ s.contacts, p.1 < c.1 := by
  obtain ⟨before, m, rest, rfl, hsilent, hmatch, hnames, hfruitless, hlater⟩ := h
  obtain ⟨hsome, hgiven⟩ := hfruitless hmatch
  obtain ⟨names, hsome⟩ := Option.isSome_iff_exists.mp hsome
  obtain ⟨p, ps, rfl⟩ : ∃ p ps, names = p :: ps :=
    exists_cons_of_ne_nil fun hnil => hnames (hnil ▸ hsome)
  obtain ⟨tag, hfront⟩ : ∃ tag, parseChildren junk r requestUri vdigits 0 {} (before ++ m :: rest) =
      parseChildren junk r requestUri vdigits (0 + before.length) { callTag := tag } (m :: rest) :=
    parseChildren_silent rfl rfl hsilent (m :: rest)
  let found : Mapped :=
    { permissions := (p :: ps).map fun p => (0 + before.length, permissionRow junk requestUri p)
      callTag := tag
      bPermissionFound := true }
  have hstep : parseChild junk r requestUri vdigits (0 + before.length) { callTag := tag } m =
      some found := by
    rw [parseChild_run hmatch hsome _ (.inr (.inr (cons_ne_nil p ps))), hgiven]
    rfl
  obtain ⟨s', i, c, cs, more, hrun, hs', hi, hc, hp⟩ :=
    parseChildren_found hlater (k := 0 + before.length + 1) (s := found) rfl rfl
  refine ⟨s', ?_, hs', (0 + before.length, permissionRow junk requestUri p), ?_, (i, c), ?_, hi⟩
  · rw [hfront, parseChildren, if_neg Bool.false_ne_true, hstep, Option.bind_some, hrun]
  · rw [hp]
    exact mem_append_left _ mem_cons_self
  · rw [hc]
    exact mem_append_right _ mem_cons_self

/-- **Contacts and permissions** of `getContactList` are those of one element, unless the
elements of the `userMatch` that applies are mixed up. -/
theorem getContactList_fromOne_iff (pcre : Pcre) (captured : Text → Text → Text) (junk : Byte)
    (r : Replacements) (requestUri : Url) (doc : List XmlNode) :
    (∀ s, getContactList junk r requestUri pcre captured doc = some (some s) →
      s.succeeded = true → ∃ userMatch,
        getUserMatchContainerMatchingRequestURI pcre requestUri doc = some (some userMatch) ∧
          FromOne junk r requestUri (variableDigits requestUri pcre captured userMatch)
            userMatch.children s) ↔
      ∀ userMatch,
        getUserMatchContainerMatchingRequestURI pcre requestUri doc = some (some userMatch) →
          ¬ MixedUp junk r requestUri (variableDigits requestUri pcre captured userMatch)
            userMatch.children := by
  constructor
  · intro h userMatch hfound hmixed
    obtain ⟨s, hrun, hs, p, hp, c, hc, hlt⟩ := exists_mixed hmixed
    have hresult : getContactList junk r requestUri pcre captured doc = some (some s) := by
      rw [getContactList, hfound, Option.bind_some, Option.elim_some, parsePermMatchContainer, hrun]
      rfl
    obtain ⟨_, -, hone⟩ := h s hresult hs
    exact absurd (hone.eq p hp c hc) (Nat.ne_of_lt hlt)
  · intro h s hresult hs
    obtain ⟨found, hfound, hrun⟩ := Option.bind_eq_some_iff.mp hresult
    cases found with
    | none => exact absurd (Option.some_inj.mp hrun) (by simp)
    | some userMatch =>
      obtain ⟨s', hparse, hs'⟩ := Option.map_eq_some_iff.mp hrun
      obtain rfl := Option.some_inj.mp hs'
      refine ⟨userMatch, hfound, ?_⟩
      obtain hone | hmixed := givenByOne_or_mixedUp rfl rfl hparse hs
      · exact hone.fromOne
      · exact absurd hmixed (h userMatch hfound)

/-- A rule with a permission whose transform has an unknown element, and one with another
permission whose transform puts in a new user. -/
def twoPermissions : List XmlNode :=
  let permission (name : String) := .element (text "permission") [] [.text (text name)]
  [.element (text "mappings") [] [.element (text "hostMatch") []
    [.element (text "hostPattern") [(text "format", text "DnsWildcard")] [.text (text "*")],
      .element (text "userMatch") []
        [.element (text "userPattern") [] [.text (text "1")],
          .element (text "permissionMatch") [] [permission "LocalDialing",
            .element (text "transform") [] [.element (text "other") [] []]],
          .element (text "permissionMatch") [] [permission "Voicemail",
            .element (text "transform") []
              [.element (text "user") [] [.text (text "100")]]]]]]]

/-- The permission of the first element comes with the contact of the second. -/
theorem not_fromOne :
    ¬ ∀ (pcre : Pcre) (captured : Text → Text → Text) (junk : Byte) (r : Replacements)
      (requestUri : Url) (doc : List XmlNode) (s : Mapped),
        getContactList junk r requestUri pcre captured doc = some (some s) →
          s.succeeded = true → ∃ userMatch,
            getUserMatchContainerMatchingRequestURI pcre requestUri doc = some (some userMatch) ∧
              FromOne junk r requestUri (variableDigits requestUri pcre captured userMatch)
                userMatch.children s := by
  intro h
  have hrun : getContactList 0 ⟨[], [], []⟩ {} (fun _ _ => some fun _ => true) (fun _ _ => [])
      twoPermissions = some (some
        { contacts := [(2, { uri := text "sip:", contact := text "sip:100@" })]
          permissions := [(1, ⟨text "sip:", text "LocalDialing"⟩),
            (2, ⟨text "sip:", text "Voicemail"⟩)]
          bPermissionFound := true
          succeeded := true }) := by decide
  obtain ⟨_, -, hone⟩ := h _ _ _ _ _ _ _ hrun rfl
  have heq := hone.eq _ mem_cons_self _ mem_cons_self
  exact absurd heq (by decide)

end Loop

end UrlMapping

end SipXRouter
