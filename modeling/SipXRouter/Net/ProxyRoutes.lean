import SipXRouter.Loop
import SipXRouter.Net.RouteList

/-!
# The routes of a proxied request

`normalizeProxyRoutes` takes the routes to this proxy from the front of the Route values.  It
also undoes what a strict router upstream has done: a request URI that this proxy has put into
a Record-Route header is replaced by the last Route value.

## Design notes

The loop need not end.  Where no Route value is left, it prints the request URI without its `lr`
parameter and reads it again, and nothing says that no `lr` is read then.  What is shown is that
it ends or comes to that point.
-/

namespace SipXRouter

open List

namespace SipMessage

open HttpMessage NameValueTokenizer

/-! ## The loop -/

/-- `changeUri`. -/
def changeUri (m : SipMessage) (newUri : Text) : SipMessage :=
  m.changeRequestUri (cString (Url.ofText (cString newUri) .nameAddr).getUri)

/-- `getLastRouteUri`: the last value and its index, as the loop that reads them all finds them. -/
def getLastRouteUri (m : SipMessage) : Option (Text × Nat) :=
  (fieldSubfields m routeField).getLast?.map fun value =>
    (value, (fieldSubfields m routeField).length - 1)

/-- The request URI as a turn of the loop reads it. -/
def readUri (m : SipMessage) : Url := Url.fromString (cString m.getRequestUri) .addrSpec

/-- The request URI comes from a Record-Route header of this proxy. -/
def isStrictRouted (isMyHostAlias : Url → Bool) (m : SipMessage) : Bool :=
  ((readUri m).getUrlParameter (text "lr")).isSome && isMyHostAlias (readUri m)

/-- A Route value as it is read. -/
def routeUrl (value : Text) : Url := Url.fromString (cString (trim isBlank value)) .nameAddr

/-- The variables of the loop.  The list of removed routes may be missing. -/
structure Normalizing where
  message : SipMessage
  requestUri : Url := {}
  removedRoutes : Option (List Text) := some []

namespace Normalizing

variable (isMyHostAlias : Url → Bool) (junk : Byte) (st : Normalizing)

/-- The removed routes with one more. -/
def saveRoute (route : Url) : Option (List Text) :=
  st.removedRoutes.map (· ++ [route.toString junk])

/-- One turn of `normalizeProxyRoutes`. -/
def turn : Normalizing ⊕ Normalizing :=
  if isStrictRouted isMyHostAlias st.message then
    match getLastRouteUri st.message with
    | some (lastRouteValue, lastRouteIndex) =>
      .inl { message := changeUri (removeRouteUri st.message lastRouteIndex) lastRouteValue
             requestUri := readUri st.message
             removedRoutes := st.saveRoute junk (readUri st.message) }
    | none =>
      .inl { st with
        message := st.message.changeRequestUri
          (cString (((readUri st.message).removeUrlParameter (text "lr")).toString junk))
        requestUri := (readUri st.message).removeUrlParameter (text "lr") }
  else
    match getRouteUri st.message 0 with
    | some topRouteValue =>
      let topRouteUrl := Url.fromString (cString topRouteValue) .nameAddr
      if isMyHostAlias topRouteUrl then
        .inl { message := removeRouteUri st.message 0
               requestUri := readUri st.message
               removedRoutes := st.saveRoute junk topRouteUrl }
      else .inr { st with requestUri := readUri st.message }
    | none => .inr { st with requestUri := readUri st.message }

/-! ## What the loop does -/

/-- What has become of the Route values: routes to this proxy are gone from the front and values
from the back, what is left is as it was or in brackets, and as many routes are reported, each of
them one to this proxy. -/
structure Removed (routes : List Text) (saved : Option (List Text))
    (front kept back reported : List Text) : Prop where
  routes_eq : routes = front ++ kept ++ back
  own : ∀ v ∈ front, isMyHostAlias (routeUrl v) = true ∨
    isMyHostAlias (routeUrl (bracketed v)) = true
  left : fieldSubfields st.message routeField = kept ∨
    fieldSubfields st.message routeField = kept.map bracketed
  length_eq : reported.length = front.length + back.length
  own_reported : ∀ r ∈ reported, ∃ u : Url, isMyHostAlias u = true ∧ r = u.toString junk
  removedRoutes : st.removedRoutes = saved.map (· ++ reported)

/-- The loop has removed values from both ends only. -/
def KeepsRoutes (routes : List Text) (saved : Option (List Text)) : Prop :=
  ∃ front kept back reported, st.Removed isMyHostAlias junk routes saved front kept back reported

/-- How the loop leaves a message: the request URI is not to be replaced, and the top route is
not one to this proxy. -/
structure Ended : Prop where
  requestUri : st.requestUri = readUri st.message
  strict : isStrictRouted isMyHostAlias st.message = false
  top : ∀ topRouteValue ∈ getRouteUri st.message 0,
    isMyHostAlias (Url.fromString (cString topRouteValue) .nameAddr) = false

/-- The Route headers can be read, also with all values in brackets. -/
def Readable : Prop :=
  ∃ rows, HasRows st.message routeField rows ∧
    spread (rows.flatten.map bracketed) ≤ maxFieldLength

end Normalizing

theorem bracketed_bracketed (value : Text) : bracketed (bracketed value) = bracketed value := by
  by_cases h : value.contains (byte '<') = true
  · have hsame : bracketed value = value := if_pos h
    rw [hsame, hsame]
  · have hnew : bracketed value = byte '<' :: value ++ [byte '>'] := if_neg h
    rw [hnew]
    exact if_pos (by simp)

theorem map_bracketed_bracketed (values : List Text) :
    (values.map bracketed).map bracketed = values.map bracketed := by
  rw [map_map]
  exact map_congr_left fun v _ => bracketed_bracketed v

namespace Normalizing

variable {isMyHostAlias : Url → Bool} {junk : Byte} {st st' : Normalizing}

theorem exists_of_getRouteUri {m : SipMessage} {i : Nat} {routeUri : Text}
    (h : getRouteUri m i = some routeUri) :
    ∃ value, (fieldSubfields m routeField)[i]? = some value ∧ routeUri = trim isBlank value := by
  rw [getRouteUri, getFieldSubfield_eq] at h
  split at h
  · cases h
  · next value hvalue =>
      split at h
      · cases h
      · exact ⟨value, hvalue, (Option.some.inj h).symm⟩

/-- What a turn that goes on does. -/
theorem turn_cases (h : st.turn isMyHostAlias junk = .inl st') :
    (isStrictRouted isMyHostAlias st.message = true ∧ fieldSubfields st.message routeField = [] ∧
      st'.message.nameValues = st.message.nameValues ∧ st'.removedRoutes = st.removedRoutes) ∨
    ∃ (i : Nat) (route : Url), isMyHostAlias route = true ∧
      st'.message.nameValues = (removeRouteUri st.message i).nameValues ∧
      st'.removedRoutes = st.saveRoute junk route ∧
      (i + 1 = (fieldSubfields st.message routeField).length ∨
        i = 0 ∧ ∃ top, (fieldSubfields st.message routeField)[0]? = some top ∧
          route = routeUrl top) := by
  rw [turn, getLastRouteUri] at h
  split at h
  · next hstrict =>
      cases hlast : (fieldSubfields st.message routeField).getLast? with
      | none =>
        rw [hlast] at h
        obtain rfl := Sum.inl.inj h
        exact .inl ⟨hstrict, getLast?_eq_none_iff.mp hlast, rfl, rfl⟩
      | some value =>
        rw [hlast] at h
        obtain rfl := Sum.inl.inj h
        have hpos := length_pos_of_mem (mem_of_getLast? hlast)
        exact .inr ⟨_, readUri st.message, (Bool.and_eq_true_iff.mp hstrict).2, rfl, rfl,
          .inl (Nat.sub_add_cancel hpos)⟩
  · split at h
    · next topRouteValue htop =>
        obtain ⟨top, hfirst, rfl⟩ := exists_of_getRouteUri htop
        dsimp only at h
        split at h
        · next hown =>
            obtain rfl := Sum.inl.inj h
            exact .inr ⟨0, routeUrl top, hown, rfl, rfl, .inr ⟨rfl, top, hfirst, rfl⟩⟩
        · cases h
    · cases h

/-- A turn that ends the loop changes nothing any more. -/
theorem ended_of_turn (h : st.turn isMyHostAlias junk = .inr st') :
    st'.Ended isMyHostAlias ∧ st'.message = st.message ∧ st'.removedRoutes = st.removedRoutes := by
  rw [turn] at h
  split at h
  · split at h <;> cases h
  · next hstrict =>
      split at h
      · next topRouteValue htop =>
          dsimp only at h
          split at h
          · cases h
          · next hown =>
              obtain rfl := Sum.inr.inj h
              refine ⟨⟨?_, Bool.eq_false_iff.mpr hstrict, fun t ht => ?_⟩, rfl, rfl⟩
              · dsimp only
              · obtain rfl : topRouteValue = t := Option.some.inj (htop.symm.trans ht)
                exact Bool.eq_false_iff.mpr hown
      · next htop =>
          obtain rfl := Sum.inr.inj h
          refine ⟨⟨?_, Bool.eq_false_iff.mpr hstrict, fun t ht => ?_⟩, rfl, rfl⟩
          · dsimp only
          · exact absurd (htop.symm.trans ht) (Option.some_ne_none _).symm

theorem headerValues_congr {m m' : SipMessage} (h : m'.nameValues = m.nameValues) :
    m'.headerValues routeField = m.headerValues routeField := by
  rw [headerValues, headerValues, h]

theorem hasRows_congr {m m' : SipMessage} {rows : List (List Text)}
    (h : m'.nameValues = m.nameValues) (hm : HasRows m routeField rows) :
    HasRows m' routeField rows :=
  ⟨(headerValues_congr h).trans hm.headers, hm.lists⟩

theorem fieldSubfields_congr {m m' : SipMessage} (h : m'.nameValues = m.nameValues) :
    fieldSubfields m' routeField = fieldSubfields m routeField := by
  rw [fieldSubfields, fieldSubfields, headerValues_congr h]

/-- **One turn** removes a value from an end, or finds none. -/
theorem KeepsRoutes.turn {routes : List Text} {saved : Option (List Text)}
    (hkeeps : st.KeepsRoutes isMyHostAlias junk routes saved) (hread : st.Readable)
    (h : st.turn isMyHostAlias junk = .inl st') :
    st'.KeepsRoutes isMyHostAlias junk routes saved ∧ st'.Readable ∧
      (isStrictRouted isMyHostAlias st.message = true ∧ fieldSubfields st.message routeField = [] ∨
        (fieldSubfields st'.message routeField).length <
          (fieldSubfields st.message routeField).length) := by
  obtain ⟨front, kept, back, reported, hk⟩ := hkeeps
  obtain ⟨rows, hrows, hroom⟩ := hread
  obtain ⟨hstrict, hnil, hsame, hremoved⟩ | ⟨i, route, hown, hsame, hremoved, hend⟩ :=
    turn_cases h
  · refine ⟨⟨front, kept, back, reported, { hk with left := ?_, removedRoutes := ?_ }⟩,
      ⟨rows, hasRows_congr hsame hrows, hroom⟩, .inl ⟨hstrict, hnil⟩⟩
    · rw [fieldSubfields_congr hsame]
      exact hk.left
    · exact hremoved.trans hk.removedRoutes
  · obtain ⟨rows', hrows', hflatten⟩ := exists_hasRows_removeRouteUri hrows hroom i
    have hall := fieldSubfields_of_hasRows hrows
    have hleft : fieldSubfields st'.message routeField =
        (kept.eraseIdx i).map bracketed := by
      rw [fieldSubfields_congr hsame, fieldSubfields_of_hasRows hrows', hflatten, ← hall]
      rcases hk.left with hleft | hleft <;> rw [hleft]
      rw [← eraseIdx_map, map_bracketed_bracketed, eraseIdx_map]
    have hlength : (fieldSubfields st.message routeField).length = kept.length := by
      rcases hk.left with hleft | hleft <;> rw [hleft]
      exact length_map _
    have hi : i < kept.length := by
      rcases hend with hend | ⟨rfl, top, htop, -⟩
      · omega
      · rw [← hlength]
        exact (List.getElem?_eq_some_iff.mp htop).1
    have hreported : ∀ r ∈ reported ++ [route.toString junk],
        ∃ u : Url, isMyHostAlias u = true ∧ r = u.toString junk := by
      intro r hr
      rcases mem_append.mp hr with hr | hr
      · exact hk.own_reported r hr
      · exact ⟨route, hown, mem_singleton.mp hr⟩
    have hremoved' : st'.removedRoutes = saved.map (· ++ (reported ++ [route.toString junk])) := by
      rw [hremoved, saveRoute, hk.removedRoutes, Option.map_map]
      exact congrArg (Option.map · saved) (funext fun l => append_assoc ..)
    refine ⟨?_, ⟨rows', hasRows_congr hsame hrows', ?_⟩, .inr ?_⟩
    · rcases hend with hend | ⟨rfl, top, htop, hroute⟩
      · -- the last value has become the request URI
        have hne : kept ≠ [] := ne_nil_of_length_pos (by omega)
        have hlast : i + 1 = kept.length := hend.trans hlength
        refine ⟨front, kept.dropLast, kept.getLast hne :: back, _, ?_, hk.own, .inr ?_, ?_,
          hreported, hremoved'⟩
        · conv_lhs => rw [hk.routes_eq, ← dropLast_append_getLast hne]
          simp only [append_assoc, singleton_append]
        · rw [hleft, eraseIdx_eq_dropLast hlast]
        · rw [length_append, length_singleton, hk.length_eq, length_cons]
          omega
      · -- the first value is a route to this proxy
        cases kept with
        | nil => exact absurd hi (Nat.not_lt_zero 0)
        | cons v kept =>
          refine ⟨front ++ [v], kept, back, _, ?_, fun w hw => ?_, .inr hleft, ?_, hreported,
            hremoved'⟩
          · rw [hk.routes_eq, append_assoc front [v] kept]
            rfl
          · rcases mem_append.mp hw with hw | hw
            · exact hk.own w hw
            · obtain rfl := mem_singleton.mp hw
              rcases hk.left with hleft | hleft
              · rw [hleft, getElem?_cons_zero, Option.some_inj] at htop
                rw [hroute, ← htop] at hown
                exact .inl hown
              · rw [hleft, map_cons, getElem?_cons_zero, Option.some_inj] at htop
                rw [hroute, ← htop] at hown
                exact .inr hown
          · rw [length_append, length_append, length_singleton,
              length_singleton, hk.length_eq]
            omega
    · rw [hflatten, map_bracketed_bracketed]
      exact (spread_map_bracketed_le (eraseIdx_sublist _ _)).trans hroom
    · rw [hleft, length_map, hlength, length_eraseIdx_of_lt hi]
      omega

/-- **`normalizeProxyRoutes`** removes Route values from the ends only, routes to this proxy
from the front, and reports as many.  It ends with a message that needs no more of it, or has
no Route value left when it finds its own `lr` URI. -/
theorem normalizeProxyRoutes_keepsRoutes {m : SipMessage} {rows : List (List Text)}
    (hrows : HasRows m routeField rows)
    (hroom : spread (rows.flatten.map bracketed) ≤ maxFieldLength) (isMyHostAlias : Url → Bool)
    (junk : Byte) (requestUri : Url) (saved : Option (List Text)) :
    (∀ st, Loop.Reaches (turn isMyHostAlias junk) ⟨m, requestUri, saved⟩ st →
      st.KeepsRoutes isMyHostAlias junk rows.flatten saved) ∧
    ((∃ st, Loop.Reaches (turn isMyHostAlias junk) ⟨m, requestUri, saved⟩ st ∧
        isStrictRouted isMyHostAlias st.message = true ∧
        fieldSubfields st.message routeField = []) ∨
      ∃ out, Loop.Returns (turn isMyHostAlias junk) ⟨m, requestUri, saved⟩ out ∧
        out.KeepsRoutes isMyHostAlias junk rows.flatten saved ∧ out.Ended isMyHostAlias) := by
  have hstart : KeepsRoutes isMyHostAlias junk ⟨m, requestUri, saved⟩ rows.flatten saved := by
    refine ⟨[], rows.flatten, [], [], (append_nil _).symm, by simp, .inl ?_, rfl, by simp, ?_⟩
    · exact fieldSubfields_of_hasRows hrows
    · simp
  have hreaches (st : Normalizing)
      (h : Loop.Reaches (turn isMyHostAlias junk) ⟨m, requestUri, saved⟩ st) :
      st.KeepsRoutes isMyHostAlias junk rows.flatten saved ∧ st.Readable := by
    refine @Loop.Reaches.invariant _ _ _ _ _ (fun st =>
      st.KeepsRoutes isMyHostAlias junk rows.flatten saved ∧ st.Readable) h
      ⟨hstart, rows, hrows, hroom⟩ fun s s' hs hnext => ?_
    obtain ⟨hkeeps, hread, -⟩ := hs.1.turn hs.2 hnext
    exact ⟨hkeeps, hread⟩
  refine ⟨fun st h => (hreaches st h).1, or_iff_not_imp_left.mpr fun hleft => ?_⟩
  -- as long as there are Route values, every turn removes one
  refine @Loop.exists_returns _ _ (turn isMyHostAlias junk) ⟨m, requestUri, saved⟩
    (Loop.Reaches (turn isMyHostAlias junk) ⟨m, requestUri, saved⟩) _
    (fun st => (fieldSubfields st.message routeField).length) .refl (fun st st' hst h => ?_)
    fun st out hst h => ?_
  · obtain ⟨hkeeps, hread⟩ := hreaches st hst
    obtain ⟨-, -, hstrip | hlt⟩ := hkeeps.turn hread h
    · exact absurd ⟨st, hst, hstrip⟩ hleft
    · exact ⟨hst.tail h, hlt⟩
  · obtain ⟨hended, hmessage, hremoved⟩ := ended_of_turn h
    obtain ⟨front, kept, back, reported, hk⟩ := (hreaches st hst).1
    exact ⟨⟨front, kept, back, reported, hk.routes_eq, hk.own, hmessage ▸ hk.left, hk.length_eq,
      hk.own_reported, hremoved.trans hk.removedRoutes⟩, hended⟩

/-- A request with a route to this proxy and one to another. -/
def ownRoute : SipMessage where
  firstHeaderLine := text "BYE sip:user@example.com SIP/2.0"
  nameValues := [(routeField, text "<sip:me;lr>,<sip:b>")]

/-- The aliases of a proxy with one name. -/
def isMe (url : Url) : Bool := url.hostAddress == text "me"

theorem keepsRoutes_ownRoute :
    ∃ st, turn isMe 0 ⟨ownRoute, {}, some []⟩ = .inl st ∧
      st.KeepsRoutes isMe 0 [text "<sip:me;lr>", text "<sip:b>"] (some []) := by
  have hrows : HasRows ownRoute routeField [[text "<sip:me;lr>", text "<sip:b>"]] := by
    refine ⟨by decide, fun row hrow => ?_⟩
    rw [mem_singleton.mp hrow]
    refine ⟨by decide, fun value hvalue => ?_, by decide⟩
    rcases mem_cons.mp hvalue with rfl | hvalue
    · exact ⟨by decide, by decide⟩
    · rw [mem_singleton.mp hvalue]
      exact ⟨by decide, by decide⟩
  have hgoes : (turn isMe 0 ⟨ownRoute, {}, some []⟩).isLeft = true := by decide +kernel
  obtain ⟨st, hst⟩ := Sum.isLeft_iff.mp hgoes
  exact ⟨st, hst,
    (normalizeProxyRoutes_keepsRoutes hrows (by decide) isMe 0 {} (some [])).1 st (.tail .refl hst)⟩

end Normalizing

end SipMessage

end SipXRouter
