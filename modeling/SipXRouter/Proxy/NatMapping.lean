import SipXRouter.Net.SipMessage

/-!
# NAT mapping information in contacts

`SipRouter::addNatMappingInfoToContacts` marks each contact of a request with what is
known about a NAT between the caller and the proxy.  If the top Via shows that the
request came through one, the contact is changed to the public address and keeps its
own address in the parameter `x-sipX-privcontact`; otherwise it gets the parameter
`x-sipX-nonat`, unless it carries one of the two already.

Contacts are read by the number of a contact over all headers and written by the
number of a header.  The loop goes on while there is a contact of the next number, so
that where a contact stands behind others in its header each round may add a header,
and the loop need not end; it is modelled with a bound on its rounds.
-/

namespace SipXRouter

open List

namespace SipRouter

open SipMessage NameValueTokenizer

/-- `SIP_VIA_FIELD`. -/
def viaField : Text := text "VIA"

/-- `receivedSet` of `SipMessage::getTopVia`: the first Via value has a `received`
parameter behind its sent-by part. -/
def getTopViaReceivedSet (m : SipMessage) : Bool :=
  match getFieldSubfield m viaField 0 with
  | none => false
  | some via =>
    ((Url.ofText (getSubField via 1 isBlank []) .addrSpec).getUrlParameter
      (text "received")).isSome

/-- The value of `x-sipX-privcontact`: the host, port and transport of the contact. -/
def natUrlParameterValue (contact : Url) : Text :=
  contact.hostAddress ++
    (if contact.hostPort ≠ portNone then byte ':' :: intText contact.hostPort else []) ++
    (match contact.getUrlParameter (text "transport") with
    | some transport => text ";transport=" ++ transport
    | none => [])

/-- The changes to one contact. -/
def mapContact (bReceivedSet : Bool) (publicAddress : Text) (publicPort : Int) (contact : Url) :
    Url :=
  if bReceivedSet then
    let contact :=
      (contact.removeUrlParameter Url.noNatParam).removeUrlParameter Url.privateContactParam
    { contact with hostAddress := publicAddress, hostPort := publicPort }.setUrlParameter
      Url.privateContactParam (natUrlParameterValue contact)
  else if contact.getUrlParameter Url.privateContactParam = none ∧
      contact.getUrlParameter Url.noNatParam = none then
    contact.setUrlParameter Url.noNatParam []
  else contact

/-- Whether a contact is rewritten: not a star, and a `sip` or `sips` URI. -/
def isMapped (contactString : Text) : Bool :=
  decide (contactString ≠ text "*") && (Url.ofText contactString .nameAddr).scheme.isSip

/-- A contact with its changes, as it is written back. -/
def mapContactString (junk : Byte) (bReceivedSet : Bool) (publicAddress : Text) (publicPort : Int)
    (contactString : Text) : Text :=
  (mapContact bReceivedSet publicAddress publicPort
    (Url.ofText contactString .nameAddr)).toString junk

/-- The loop over the contacts, with a bound on its rounds. -/
def mapContacts (junk : Byte) (bReceivedSet : Bool) :
    (fuel : Nat) → (contactNumber : Nat) → SipMessage → Option SipMessage
  | 0, _, _ => none
  | fuel + 1, contactNumber, m =>
    match getContactEntry m contactNumber with
    | none => some m
    | some contactString =>
      if isMapped contactString then
        mapContacts junk bReceivedSet fuel (contactNumber + 1)
          (setContactField m
            (mapContactString junk bReceivedSet m.sendAddress m.sendPort contactString)
            contactNumber)
      else mapContacts junk bReceivedSet fuel (contactNumber + 1) m

/-- `SipRouter::addNatMappingInfoToContacts`. -/
def addNatMappingInfoToContacts (junk : Byte) (fuel : Nat) (m : SipMessage) : Option SipMessage :=
  mapContacts junk (getTopViaReceivedSet m) fuel 0 m

/-- All Contact values in their order. -/
def contacts (m : SipMessage) : List Text := (fieldRows contactEntries m contactField).flatten

/-- The numbers of the contacts that are rewritten. -/
def mappedPlaces (m : SipMessage) : List Nat := Layout.placesFrom isMapped 0 (contacts m)

/-- A text that is read as one contact: no comma stands outside of quotes, and the
quotes are closed. -/
def OneContact (t : Text) : Prop := contactEntries t = [t]

instance (t : Text) : Decidable (OneContact t) := inferInstanceAs (Decidable (_ = _))

/-! ## One contact -/

/-- The parameters other than the two of the NAT mapping. -/
def otherParams (contact : Url) : List (Text × Text) :=
  contact.urlParameters.filter fun nv =>
    !caseEq nv.1 Url.noNatParam && !caseEq nv.1 Url.privateContactParam

/-- Two URIs that differ in the parameters of the NAT mapping only. -/
def SameButNatParams (contact contact' : Url) : Prop :=
  { contact' with urlParameters := otherParams contact' } =
    { contact with urlParameters := otherParams contact }

instance (contact contact' : Url) : Decidable (SameButNatParams contact contact') :=
  inferInstanceAs (Decidable (_ = _))

/-- What the code does to a contact by design: behind a NAT its host and port become
the public ones, and apart from that only the parameters of the NAT mapping change. -/
structure NatMapped (bReceivedSet : Bool) (publicAddress : Text) (publicPort : Int)
    (contact contact' : Url) : Prop where
  host : contact'.hostAddress = if bReceivedSet then publicAddress else contact.hostAddress
  port : contact'.hostPort = if bReceivedSet then publicPort else contact.hostPort
  same : SameButNatParams contact
    { contact' with hostAddress := contact.hostAddress, hostPort := contact.hostPort }

theorem otherParams_setUrlParameter (contact : Url) {name : Text}
    (hname : name = Url.noNatParam ∨ name = Url.privateContactParam) (value : Text) :
    otherParams (contact.setUrlParameter name value) = otherParams contact := by
  refine Url.filter_setFirst ?_ value contact.urlParameters
  intro nv hnv
  rcases hname with rfl | rfl <;> simp [hnv]

theorem otherParams_removeUrlParameter (contact : Url) {name : Text}
    (hname : name = Url.noNatParam ∨ name = Url.privateContactParam) :
    otherParams (contact.removeUrlParameter name) = otherParams contact := by
  rw [otherParams, otherParams, Url.removeUrlParameter, filter_filter]
  congr 1
  funext nv
  rcases hname with rfl | rfl <;> cases caseEq nv.1 Url.noNatParam <;>
    cases caseEq nv.1 Url.privateContactParam <;> rfl

theorem natMapped_mapContact (bReceivedSet : Bool) (publicAddress : Text) (publicPort : Int)
    (contact : Url) : NatMapped bReceivedSet publicAddress publicPort contact
      (mapContact bReceivedSet publicAddress publicPort contact) := by
  cases bReceivedSet with
  | true =>
    refine ⟨rfl, rfl, ?_⟩
    have hparams : otherParams (mapContact true publicAddress publicPort contact) =
        otherParams contact := by
      rw [mapContact, if_pos rfl, otherParams_setUrlParameter _ (Or.inr rfl)]
      exact (otherParams_removeUrlParameter _ (Or.inr rfl)).trans
        (otherParams_removeUrlParameter _ (Or.inl rfl))
    exact congrArg (fun params => ({ contact with urlParameters := params } : Url)) hparams
  | false =>
    rw [mapContact, if_neg Bool.false_ne_true]
    split
    · refine ⟨rfl, rfl, ?_⟩
      exact congrArg (fun params => ({ contact with urlParameters := params } : Url))
        (otherParams_setUrlParameter contact (Or.inl rfl) [])
    · exact ⟨rfl, rfl, rfl⟩

/-! ## The loop -/

section Loop

variable {junk : Byte} {bReceivedSet : Bool} {publicAddress : Text} {publicPort : Int}

/-- The loop rewrites the contacts that are mapped, and no others. -/
theorem mapContacts_eq :
    ∀ (rest front : List Text) {m : SipMessage} {fuel : Nat},
      contacts m = front ++ rest → m.sendAddress = publicAddress → m.sendPort = publicPort →
      rest.length < fuel →
      (∀ q ∈ Layout.placesFrom isMapped front.length rest,
        Layout.AlignedAt (fieldRows contactEntries m contactField) q) →
      (∀ contact ∈ rest, isMapped contact = true →
        OneContact (mapContactString junk bReceivedSet publicAddress publicPort contact)) →
      mapContacts junk bReceivedSet fuel front.length m =
        some ((Layout.placesFrom isMapped front.length rest).foldl
          (rewriteField contactEntries contactField fun contact =>
            mapContactString junk bReceivedSet publicAddress publicPort (contact.getD [])) m) := by
  intro rest
  induction rest with
  | nil =>
    intro front m fuel hcontacts _ _ hfuel _ _
    obtain ⟨fuel, rfl⟩ : ∃ k, fuel = k + 1 := ⟨fuel - 1, by simp at hfuel; omega⟩
    have hend : getContactEntry m front.length = none := by
      rw [getContactEntry_eq]
      change (contacts m)[front.length]? = none
      simp [hcontacts]
    simp [mapContacts, hend, Layout.placesFrom]
  | cons contact rest ih =>
    intro front m fuel hcontacts haddress hport hfuel haligned hone
    obtain ⟨fuel, rfl⟩ : ∃ k, fuel = k + 1 := ⟨fuel - 1, by simp at hfuel; omega⟩
    have hfuel : rest.length < fuel := by simpa using hfuel
    have hvalue : (contacts m)[front.length]? = some contact := by simp [hcontacts]
    have hentry : getContactEntry m front.length = some contact := by
      rw [getContactEntry_eq]
      exact hvalue
    have hlength : ∀ x : Text, (front ++ [x]).length = front.length + 1 := by simp
    simp only [mapContacts, hentry]
    rw [Layout.placesFrom] at haligned ⊢
    by_cases hmapped : isMapped contact = true
    · rw [if_pos hmapped] at haligned ⊢
      rw [if_pos hmapped, foldl_cons]
      obtain ⟨hhead, htail⟩ := forall_mem_cons.mp haligned
      have hread := hone contact (by simp) hmapped
      have hne : mapContactString junk bReceivedSet publicAddress publicPort contact ≠ [] :=
        Url.toString_ne_nil junk _
      have hstep : rewriteField contactEntries contactField (fun contact =>
          mapContactString junk bReceivedSet publicAddress publicPort (contact.getD [])) m
            front.length =
          setContactField m (mapContactString junk bReceivedSet m.sendAddress m.sendPort contact)
            front.length := by
        have hflat : (fieldRows contactEntries m contactField).flatten[front.length]? =
            some contact := hvalue
        rw [rewriteField, hflat, haddress, hport]
        rfl
      rw [hstep]
      generalize ht : mapContactString junk bReceivedSet m.sendAddress m.sendPort contact = t
      rw [haddress, hport] at ht
      rw [ht] at hne hread
      -- the write is seen at this contact and nowhere else
      have hrows : fieldRows contactEntries (setContactField m t front.length) contactField =
          Layout.putRow (fieldRows contactEntries m contactField) front.length t :=
        fieldRows_setHeaderValue hhead.lt_length hne hread
      have hcontacts' : contacts (setContactField m t front.length) =
          (front ++ [t]) ++ rest := by
        have hset := Layout.flatten_putRow hhead t
        rw [← hrows] at hset
        refine hset.trans ?_
        change (contacts m).set front.length t = _
        simp [hcontacts]
      have hrest := ih (front ++ [t]) hcontacts'
        (by rw [setContactField, HttpMessage.setHeaderValue_sendAddress, haddress])
        (by rw [setContactField, HttpMessage.setHeaderValue_sendPort, hport]) hfuel
        (by
          rw [hlength, hrows]
          exact fun q hq => (Layout.alignedAt_putRow hhead t q).mpr (htail q hq))
        (fun c hc => hone c (by simp [hc]))
      rwa [hlength] at hrest
    · rw [if_neg hmapped] at haligned ⊢
      rw [if_neg hmapped]
      have := ih (front ++ [contact]) (by simpa using hcontacts) haddress hport hfuel
        (by rwa [hlength]) (fun c hc => hone c (by simp [hc]))
      rwa [hlength] at this

end Loop

/-- Where each contact that is rewritten stands alone in the header of its number, and
is read back as one contact, the loop ends and leaves the contacts in number and order:
those that are not `sip` or `sips` URIs as they were, the others as the URI they were
with its NAT mapping. -/
theorem contacts_addNatMappingInfo {junk : Byte} {m : SipMessage} {fuel : Nat}
    (haligned : ∀ q ∈ mappedPlaces m,
      Layout.AlignedAt (fieldRows contactEntries m contactField) q)
    (hread : ∀ contact ∈ contacts m, isMapped contact = true →
      OneContact (mapContactString junk (getTopViaReceivedSet m) m.sendAddress m.sendPort contact))
    (hfuel : (contacts m).length < fuel) :
    ∃ m', addNatMappingInfoToContacts junk fuel m = some m' ∧
      (contacts m').length = (contacts m).length ∧
      ∀ (q : Nat) (contact : Text), (contacts m)[q]? = some contact →
        if isMapped contact then
          ∃ contact', NatMapped (getTopViaReceivedSet m) m.sendAddress m.sendPort
              (Url.ofText contact .nameAddr) contact' ∧
            (contacts m')[q]? = some (contact'.toString junk)
        else (contacts m')[q]? = some contact := by
  have hloop := mapContacts_eq (contacts m) [] (nil_append _).symm rfl rfl hfuel haligned hread
  have hnodup : (mappedPlaces m).Nodup := Layout.nodup_placesFrom _ _ _
  have hback : ∀ q ∈ mappedPlaces m, ∀ contact,
      (fieldRows contactEntries m contactField).flatten[q]? = some contact →
      mapContactString junk (getTopViaReceivedSet m) m.sendAddress m.sendPort contact ≠ [] ∧
        OneContact (mapContactString junk (getTopViaReceivedSet m) m.sendAddress m.sendPort
          contact) := by
    intro q hq contact hcontact
    refine ⟨Url.toString_ne_nil junk _, hread contact (mem_of_getElem? hcontact) ?_⟩
    rw [mappedPlaces, ← Nat.zero_add q] at hq
    exact (Layout.mem_placesFrom hcontact 0).mp hq
  have hrows := fieldRows_foldl_rewriteField
    (f := fun contact => mapContactString junk (getTopViaReceivedSet m) m.sendAddress m.sendPort
      (contact.getD [])) hnodup haligned hback
  have hcontacts := (congrArg flatten hrows).trans
    (Layout.flatten_rewriteAll _ _ _ hnodup haligned)
  refine ⟨_, hloop, ?_, ?_⟩
  · exact (congrArg length hcontacts).trans (Layout.length_rewritten _ _ _)
  · intro q contact hcontact
    have hplace : q ∈ mappedPlaces m ↔ isMapped contact = true := by
      have h := Layout.mem_placesFrom (p := isMapped) hcontact 0
      rwa [Nat.zero_add] at h
    have hvalue := (congrArg (·[q]?) hcontacts).trans (Layout.getElem?_rewritten _ _ _ _)
    have hold : (fieldRows contactEntries m contactField).flatten[q]? = some contact := hcontact
    rw [hold, Option.map_some] at hvalue
    split
    · next hmapped =>
        rw [if_pos (hplace.mpr hmapped)] at hvalue
        exact ⟨_, natMapped_mapContact _ _ _ _, hvalue⟩
    · next hmapped =>
        rw [if_neg (fun h => hmapped (hplace.mp h))] at hvalue
        exact hvalue

/-! ### Requests with contacts -/

/-- A request received from a public address. -/
def requestWith (via : String) (contactHeaders : List String) : SipMessage :=
  { firstHeaderLine := text "INVITE sip:user@somewhere.com SIP/2.0"
    nameValues := (viaField, text via) ::
      contactHeaders.map fun value => (contactField, text value)
    sendAddress := text "47.135.162.72"
    sendPort := 14956 }

/-- Two contacts in two headers, one of them not a SIP URI. -/
def twoContacts : SipMessage :=
  requestWith "SIP/2.0/UDP 10.1.1.20:5060;branch=z9hG4bK1"
    ["\"Caller, A.\" <sip:caller@10.1.1.20:5060>", "<mailto:caller@example.org>"]

theorem contacts_twoContacts :
    ∃ m', addNatMappingInfoToContacts 0 3 twoContacts = some m' ∧ (contacts m').length = 2 := by
  have hread : ∀ contact ∈ contacts twoContacts, isMapped contact = true →
      OneContact (mapContactString 0 (getTopViaReceivedSet twoContacts) twoContacts.sendAddress
        twoContacts.sendPort contact) := by decide +kernel
  have hfuel : (contacts twoContacts).length < 3 := by decide
  obtain ⟨m', hm', hlength, -⟩ := contacts_addNatMappingInfo (by decide +kernel) hread hfuel
  exact ⟨m', hm', hlength⟩

/-- The property that the contacts are left in number and order, and differ in the
parameters of the NAT mapping at most. -/
def ContactsKept (m m' : SipMessage) : Prop :=
  (contacts m').length = (contacts m).length ∧
    ∀ pair ∈ (contacts m).zip (contacts m'), pair.1 = pair.2 ∨
      SameButNatParams (Url.ofText pair.1 .nameAddr) (Url.ofText pair.2 .nameAddr)

instance (m m' : SipMessage) : Decidable (ContactsKept m m') :=
  inferInstanceAs (Decidable (_ ∧ _))

def natContact : SipMessage :=
  requestWith "SIP/2.0/UDP 10.1.1.20:5060;received=47.135.162.72;branch=z9hG4bK1"
    ["<sip:caller@10.1.1.20:5060>"]

/-- Two contacts in one header. -/
def contactList : SipMessage :=
  requestWith "SIP/2.0/UDP 10.1.1.20:5060;branch=z9hG4bK1"
    ["<sip:caller@10.1.1.20:5060>,<sip:caller@10.1.1.21:5060>"]

/-- A contact behind a NAT gets another host, and of two contacts in one header one
is lost. -/
theorem contacts_not_kept :
    (∀ m' ∈ addNatMappingInfoToContacts 0 3 natContact, ¬ ContactsKept natContact m') ∧
      (addNatMappingInfoToContacts 0 3 natContact).isSome ∧
    (∀ m' ∈ addNatMappingInfoToContacts 0 3 contactList, ¬ ContactsKept contactList m') ∧
      (addNatMappingInfoToContacts 0 3 contactList).isSome := by
  decide +kernel

end SipRouter

end SipXRouter
