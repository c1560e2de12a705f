import SipXRouter.Digitmaps.UrlMapping
import SipXRouter.Net.SipMessage
import SipXRouter.Sticky

/-!
# Forwarding rules

`ForwardRules::getRoute` looks for the `route` of a request: one with a domain pattern
that matches the URI, and in it a `methodMatch` for the method and a `fieldMatch` for a
header field, each of which may say where the request is routed to.

Two of the four loops keep a flag outside their body.  `routeMatchFound` is set by a
`routeFrom` and only ever cleared by a pattern of the other kinds; `fieldPatternFound` is
set by a `fieldPattern` and never cleared.

## Design notes

* An expression that PCRE refuses is passed over in a `fieldPattern`, and leaves the search
  as an exception in a `routeDnsWildcard`.
* A node of another type with the text `fieldPattern` is taken for an element, which is a
  null pointer.  Nothing is known of the outcome and the search has no result.
* Where no route is found, what the search has written to its outputs is left out.
-/

namespace SipXRouter

namespace ForwardRules

open UrlMapping Sticky

/-! ## Targets -/

/-- The outputs of `getRouteTo`. -/
structure Target where
  routeTo : Text
  authRequired : Bool
  ruriParams : Text
deriving DecidableEq

/-- A truth value by the first byte of its text; any other byte means the default. -/
def getYN (boolText : Option Text) (defaultValue : Bool) : Bool :=
  match boolText.bind List.head? with
  | none => defaultValue
  | some c =>
    if oneOf "yYTt1" c then true
    else if oneOf "nNFf0" c then false
    else defaultValue

/-- `getRouteTo`: the first child with the tag `routeTo`, if it is an element and gives a
route or asks for authorization. -/
def getRouteTo (nodeWithRouteToChild : XmlNode) : Option Target :=
  match nodeWithRouteToChild.childrenNamed (text "routeTo") with
  | [] => none
  | routeTo :: _ =>
    if routeTo.isElement then
      let target : Target :=
        { routeTo := trim isCgiBlank (routeTo.content.getD [])
          authRequired := getYN (routeTo.attributeOf (text "authRequired")) false
          ruriParams := (routeTo.attributeOf (text "ruriParams")).getD [] }
      if target.routeTo ≠ [] ∨ target.authRequired then some target else none
    else none

/-- Where in a route the target stands: in the route itself, in a `methodMatch` by one of
its patterns, or in a `fieldMatch` of it. -/
inductive Place where
  | route
  | method (methodMatch pattern : XmlNode)
  | field (methodMatch pattern fieldMatch : XmlNode)

/-! ## Fields -/

section Search

variable (pcre : Pcre) (anchored : Text → Option (Text → Bool)) (requestUri : Url)
  (request : SipMessage)

/-- The header that a `fieldMatch` names, if the request has it. -/
def namedValue (fieldMatch : XmlNode) : Option Text :=
  (fieldMatch.attributeOf (text "fieldName")).bind fun fieldNameXml =>
    if fieldNameXml = [] then none else request.getHeaderValue 0 (fieldNameXml.map toUpper)

def fieldPatterns (fieldMatch : XmlNode) : List XmlNode :=
  fieldMatch.childrenNamed (text "fieldPattern")

/-- The test of a `fieldPattern`. -/
def fieldPatternTest (fieldValue : Text) (fieldPattern : XmlNode) : Bool :=
  match fieldPattern.children with
  | [] => false
  | t :: _ => (anchored t.value).any fun search => search fieldValue

/-- `fieldPatternFound` after a `fieldMatch`. -/
def nextField (fieldMatch : XmlNode) (fieldPatternFound : Bool) : Option Bool :=
  match namedValue request fieldMatch with
  | none => some fieldPatternFound
  | some fieldValue =>
    if (fieldPatterns fieldMatch).all XmlNode.isElement then
      some (fieldPatternFound || (fieldPatterns fieldMatch).any (fieldPatternTest anchored fieldValue))
    else none

/-- The condition for `getRouteTo`. -/
def fieldFires (fieldMatch : XmlNode) (fieldPatternFound : Bool) : Bool :=
  ((namedValue request fieldMatch).isSome &&
      (fieldPatternFound || (fieldPatterns fieldMatch).isEmpty)) ||
    (fieldMatch.attributeOf (text "fieldName")).isNone

/-- The loop of `parseFieldMatchContainer`. -/
def fieldLoop : Loop XmlNode Target where
  next := nextField anchored request
  fires := fieldFires request
  search fieldMatch := some (getRouteTo fieldMatch)
  next_of_next := by
    intro fieldMatch hset
    unfold nextField at *
    cases hvalue : namedValue request fieldMatch with
    | none => rfl
    | some fieldValue =>
      simp only [hvalue] at hset ⊢
      split at hset
      next hall => rw [if_pos hall, Bool.true_or]
      next => cases hset
  fires_of_own := by
    intro fieldMatch flag flag' hown hnext
    unfold nextField fieldFires at *
    cases hvalue : namedValue request fieldMatch with
    | none =>
      simp only [hvalue, Option.any_some, Option.isSome_none, Bool.false_and, Bool.false_or] at hown ⊢
      exact hown
    | some fieldValue =>
      simp only [hvalue, Option.isSome_some, Bool.true_and] at hown hnext ⊢
      split at hnext
      · next hall =>
          rw [if_pos hall, Option.any_some, Bool.false_or] at hown
          obtain rfl := Option.some_inj.mp hnext
          revert hown
          cases (fieldPatterns fieldMatch).any (fieldPatternTest anchored fieldValue) with
          | true => intro _; rw [Bool.or_true, Bool.true_or, Bool.true_or]
          | false =>
            cases (fieldPatterns fieldMatch).isEmpty with
            | true => intro _; rw [Bool.or_true, Bool.true_or]
            | false =>
              intro hown
              rw [Bool.false_or, Bool.false_or] at hown
              rw [hown, Bool.or_true]
      · simp at hnext

/-- The first target among the fields of a method. -/
def parseFieldMatchContainer (methodMatch : XmlNode) : Option (Option (XmlNode × Target)) :=
  ((fieldLoop anchored request).scan false (methodMatch.elementsNamed (text "fieldMatch"))).map
    Prod.snd

/-! ## Methods -/

/-- The test of a `methodPattern`. -/
def methodPatternTest (methodPattern : XmlNode) : Bool :=
  methodPattern.content.any fun methodString =>
    caseEq methodString (request.getFirstHeaderLinePart 0)

/-- What is done for a pattern that matches. -/
def methodSearch (m : XmlNode × XmlNode) : Option (Option (Place × Target)) :=
  match parseFieldMatchContainer anchored request m.1 with
  | none => none
  | some (some (fieldMatch, target)) => some (some (.field m.1 m.2 fieldMatch, target))
  | some none => some ((getRouteTo m.1).map (.method m.1 m.2, ·))

/-- A `methodMatch` with each of its patterns. -/
def methodPatterns (methodMatch : XmlNode) : List (XmlNode × XmlNode) :=
  (methodMatch.elementsNamed (text "methodPattern")).map (methodMatch, ·)

/-- The loops of `parseMethodMatchContainer`, which keep no flag. -/
def methodLoop : Loop (XmlNode × XmlNode) (Place × Target) where
  next m _ := some (methodPatternTest request m.2)
  fires _ matches' := matches'
  search := methodSearch anchored request
  next_of_next _ h := h
  fires_of_own := by
    intro m flag flag' hown hnext
    rw [← Option.some_inj.mp hnext]
    exact hown

/-- The first target among the methods of a route, else its own. -/
def parseMethodMatchContainer (route : XmlNode) : Option (Option (Place × Target)) :=
  match (methodLoop anchored request).scanAll methodPatterns false
      (route.elementsNamed (text "methodMatch")) with
  | none => none
  | some (_, some (_, found)) => some (some found)
  | some (_, none) => some ((getRouteTo route).map (.route, ·))

/-! ## Routes -/

/-- The elements that hold a domain pattern. -/
def isDomainPattern (n : XmlNode) : Bool :=
  n.isElement && (n.value == text "routeFrom" || n.value == text "routeIPv4subnet" ||
    n.value == text "routeDnsWildcard")

/-- The test of a domain pattern; `none` is an exception. -/
def domainPatternTest (n : XmlNode) (pattern : Text) : Option Bool :=
  if n.value = text "routeFrom" then
    let xmlUrl := Url.ofText pattern .nameAddr
    let testPort := if requestUri.hostPort = 5060 then portNone else requestUri.hostPort
    some (caseEq xmlUrl.hostAddress requestUri.hostAddress &&
      ((xmlUrl.hostPort == 5060 && testPort == portNone) || xmlUrl.hostPort == testPort))
  else if n.value = text "routeIPv4subnet" then
    Patterns.IPv4subnet false requestUri.hostAddress pattern
  else if pattern = text "*" then some true
  else if (text "*.").isPrefixOf pattern then
    (pcre true (wildcardExpression pattern)).map fun search => search requestUri.hostAddress
  else some false

/-- `routeMatchFound` after a domain pattern. -/
def nextRoute (r : XmlNode × XmlNode) (routeMatchFound : Bool) : Option Bool :=
  match r.2.content with
  | none => some routeMatchFound
  | some pattern =>
    (domainPatternTest pcre requestUri r.2 pattern).map fun matches' =>
      if r.2.value = text "routeFrom" then matches' || routeMatchFound else matches'

def domainPatterns (route : XmlNode) : List (XmlNode × XmlNode) :=
  (route.children.filter isDomainPattern).map (route, ·)

/-- The loops of `parseRouteMatchContainer`. -/
def routeLoop : Loop (XmlNode × XmlNode) (Place × Target) where
  next := nextRoute pcre requestUri
  fires r routeMatchFound := r.2.content.isSome && routeMatchFound
  search r := parseMethodMatchContainer anchored request r.1
  next_of_next := by
    intro r hset
    unfold nextRoute at *
    cases hcontent : r.2.content with
    | none => rfl
    | some pattern =>
      simp only [hcontent, Option.map_eq_some_iff] at hset ⊢
      obtain ⟨matches', htest, hset⟩ := hset
      refine ⟨matches', htest, ?_⟩
      rw [Bool.or_false, ite_self] at hset
      rw [hset, Bool.true_or, ite_self]
  fires_of_own := by
    intro r flag flag' hown hnext
    unfold nextRoute at *
    cases hcontent : r.2.content with
    | none => simp [hcontent] at hown
    | some pattern =>
      simp only [hcontent] at hown hnext ⊢
      cases htest : domainPatternTest pcre requestUri r.2 pattern with
      | none => simp [htest] at hown
      | some matches' =>
        simp only [htest, Option.map_some, Option.any_some, Option.isSome_some, Bool.true_and,
          Bool.or_false, ite_self, Option.some_inj] at hown hnext ⊢
        rw [← hnext, hown, Bool.true_or, ite_self]

/-- The element `routes` of a document. -/
def routesNode (doc : List XmlNode) : Option XmlNode := doc.find? (·.value == text "routes")

/-- `getRoute`: the route with the pattern by which it was taken, and where in it the
target stands. -/
def getRoute (doc : List XmlNode) : Option (Option ((XmlNode × XmlNode) × Place × Target)) :=
  match routesNode doc with
  | none => some none
  | some routes =>
    if routes.isElement then
      ((routeLoop pcre anchored requestUri request).scanAll domainPatterns false
        (routes.elementsNamed (text "route"))).map Prod.snd
    else none

/-! ## What should be found -/

/-- The first `fieldMatch` whose own pattern matches, of those that give a target. -/
def fieldTarget (methodMatch : XmlNode) : Option (XmlNode × Target) :=
  (fieldLoop anchored request).firstOwn getRouteTo (methodMatch.elementsNamed (text "fieldMatch"))

/-- The target of a `methodMatch`: that of a field, else its own. -/
def methodTarget (m : XmlNode × XmlNode) : Option (Place × Target) :=
  match fieldTarget anchored request m.1 with
  | some (fieldMatch, target) => some (.field m.1 m.2 fieldMatch, target)
  | none => (getRouteTo m.1).map (.method m.1 m.2, ·)

/-- The first `methodMatch` whose own pattern matches, of those that give a target. -/
def firstMethod (route : XmlNode) : Option ((XmlNode × XmlNode) × Place × Target) :=
  (methodLoop anchored request).firstOwn (methodTarget anchored request)
    ((route.elementsNamed (text "methodMatch")).flatMap methodPatterns)

/-- The target of a route: that of a method, else its own. -/
def routeTarget (route : XmlNode) : Option (Place × Target) :=
  match firstMethod anchored request route with
  | some (_, found) => some found
  | none => (getRouteTo route).map (.route, ·)

/-- **The route of a request**: the first in the document that has a domain pattern of its
own that matches and gives a target. -/
def firstMatch (doc : List XmlNode) : Option ((XmlNode × XmlNode) × Place × Target) :=
  (routesNode doc).bind fun routes =>
    (routeLoop pcre anchored requestUri request).firstOwn (fun r => routeTarget anchored request r.1)
      ((routes.elementsNamed (text "route")).flatMap domainPatterns)

/-! ## Flags left standing

The conditions speak of the entries of a document one by one: which of them match the
request on their own, and which have a target. -/

/-- No `fieldMatch` of the method has a target, without a pattern of its own that matches,
behind one whose pattern matches the request, unless one before it that matches on its own
has a target. -/
def FieldsApart (methodMatch : XmlNode) : Prop :=
  (fieldLoop anchored request).Unmixed getRouteTo (fun _ => True)
    (methodMatch.elementsNamed (text "fieldMatch"))

/-- The fields are apart in each `methodMatch` of the route that matches on its own, up to
the first one that has a target. -/
def MethodsApart (route : XmlNode) : Prop :=
  (methodLoop anchored request).Unmixed (methodTarget anchored request)
    (fun m => FieldsApart anchored request m.1)
    ((route.elementsNamed (text "methodMatch")).flatMap methodPatterns)

/-- No route has a target for a `routeFrom` that does not match, behind a domain pattern that
matches and after which no pattern of the other kinds fails to match; and in a route that
is searched, the methods are apart.  Both up to the first route that has a target and
matches by a pattern of its own. -/
def RoutesApart (doc : List XmlNode) : Prop :=
  ∀ routes ∈ routesNode doc,
    (routeLoop pcre anchored requestUri request).Unmixed
      (fun r => routeTarget anchored request r.1) (fun r => MethodsApart anchored request r.1)
      ((routes.elementsNamed (text "route")).flatMap domainPatterns)

variable {pcre anchored requestUri request}

theorem fieldSearch_none (fieldMatch : XmlNode)
    (h : (fieldLoop anchored request).search fieldMatch = some none) :
    getRouteTo fieldMatch = none := Option.some_inj.mp h

theorem fieldTarget_of_none {methodMatch : XmlNode}
    (h : parseFieldMatchContainer anchored request methodMatch = some none) :
    fieldTarget anchored request methodMatch = none := by
  obtain ⟨⟨flag, result⟩, hscan, rfl⟩ := Option.map_eq_some_iff.mp h
  exact Loop.firstOwn_of_scan fieldSearch_none hscan

theorem fieldsApart_iff {methodMatch : XmlNode} {result : Option (XmlNode × Target)}
    (h : parseFieldMatchContainer anchored request methodMatch = some result) :
    FieldsApart anchored request methodMatch ↔ result = fieldTarget anchored request methodMatch := by
  obtain ⟨⟨flag, result⟩, hscan, rfl⟩ := Option.map_eq_some_iff.mp h
  refine Loop.unmixed_iff_of_scan (fun fieldMatch hsearch => ?_)
    (fun fieldMatch target hsearch => ?_) hscan
  · exact ⟨trivial, fieldSearch_none fieldMatch hsearch⟩
  · exact ⟨fun _ => Option.some_inj.mp hsearch, fun _ => trivial⟩

/-- What is done for a pattern ends in a field or, where no field has a target, in the method. -/
theorem methodSearch_cases {m : XmlNode × XmlNode} {found : Option (Place × Target)}
    (h : (methodLoop anchored request).search m = some found) :
    (∃ fieldMatch target,
      parseFieldMatchContainer anchored request m.1 = some (some (fieldMatch, target)) ∧
        found = some (.field m.1 m.2 fieldMatch, target)) ∨
    (parseFieldMatchContainer anchored request m.1 = some none ∧
      found = (getRouteTo m.1).map (.method m.1 m.2, ·)) := by
  rw [show (methodLoop anchored request).search m = methodSearch anchored request m from rfl,
    methodSearch] at h
  cases hfields : parseFieldMatchContainer anchored request m.1 with
  | none => simp [hfields] at h
  | some result =>
    rw [hfields] at h
    cases result with
    | some field => exact .inl ⟨field.1, field.2, rfl, (Option.some_inj.mp h).symm⟩
    | none => exact .inr ⟨rfl, (Option.some_inj.mp h).symm⟩

theorem methodTarget_of_none (m : XmlNode × XmlNode)
    (h : (methodLoop anchored request).search m = some none) :
    methodTarget anchored request m = none := by
  obtain ⟨fieldMatch, target, -, hfound⟩ | ⟨hfields, hfound⟩ := methodSearch_cases h
  · exact absurd hfound (by simp)
  · rw [methodTarget, fieldTarget_of_none hfields]
    exact hfound.symm

/-- The `methodMatch` and the pattern that a place is in. -/
def Place.methodPattern : Place → Option (XmlNode × XmlNode)
  | .route => none
  | .method methodMatch pattern => some (methodMatch, pattern)
  | .field methodMatch pattern _ => some (methodMatch, pattern)

theorem methodPattern_of_search {m : XmlNode × XmlNode} {found : Place × Target}
    (h : (methodLoop anchored request).search m = some (some found)) :
    found.1.methodPattern = some m := by
  obtain ⟨fieldMatch, target, -, hfound⟩ | ⟨-, hfound⟩ := methodSearch_cases h
  · rw [Option.some_inj.mp hfound]
    rfl
  · obtain ⟨target, -, rfl⟩ := Option.map_eq_some_iff.mp hfound.symm
    rfl

theorem methodPattern_of_target {m : XmlNode × XmlNode} {found : Place × Target}
    (h : methodTarget anchored request m = some found) : found.1.methodPattern = some m := by
  rw [methodTarget] at h
  cases hfield : fieldTarget anchored request m.1 with
  | some found' =>
    simp only [hfield, Option.some_inj] at h
    rw [← h]
    rfl
  | none =>
    rw [hfield] at h
    obtain ⟨target, -, rfl⟩ := Option.map_eq_some_iff.mp h
    rfl

theorem fieldsApart_iff_target (m : XmlNode × XmlNode) (found : Option (Place × Target))
    (h : (methodLoop anchored request).search m = some found) :
    FieldsApart anchored request m.1 ↔ methodTarget anchored request m = found := by
  obtain ⟨fieldMatch, target, hfields, rfl⟩ | ⟨hfields, rfl⟩ := methodSearch_cases h
  · rw [fieldsApart_iff hfields, methodTarget]
    cases fieldTarget anchored request m.1 with
    | none => simp
    | some found =>
      obtain ⟨fieldMatch', target'⟩ := found
      simp [eq_comm]
  · rw [fieldsApart_iff hfields, methodTarget, fieldTarget_of_none hfields]
    exact iff_of_true rfl rfl

theorem firstMethod_of_scan {route : XmlNode} {flag : Bool}
    (h : (methodLoop anchored request).scanAll methodPatterns false
      (route.elementsNamed (text "methodMatch")) = some (flag, none)) :
    firstMethod anchored request route = none := by
  rw [Loop.scanAll_eq] at h
  exact Loop.firstOwn_of_scan methodTarget_of_none h

theorem routeTarget_of_none (route : XmlNode)
    (h : parseMethodMatchContainer anchored request route = some none) :
    routeTarget anchored request route = none := by
  rw [parseMethodMatchContainer] at h
  cases hscan : (methodLoop anchored request).scanAll methodPatterns false
      (route.elementsNamed (text "methodMatch")) with
  | none => simp [hscan] at h
  | some result =>
    obtain ⟨flag, result⟩ := result
    cases result with
    | some found => simp [hscan] at h
    | none =>
      rw [hscan] at h
      rw [routeTarget, firstMethod_of_scan hscan]
      exact Option.some_inj.mp h

theorem methodsApart_iff_target (route : XmlNode) (found : Option (Place × Target))
    (h : parseMethodMatchContainer anchored request route = some found) :
    MethodsApart anchored request route ↔ routeTarget anchored request route = found := by
  rw [parseMethodMatchContainer] at h
  cases hscan : (methodLoop anchored request).scanAll methodPatterns false
      (route.elementsNamed (text "methodMatch")) with
  | none => simp [hscan] at h
  | some result =>
    obtain ⟨flag, result⟩ := result
    have hscan' := hscan
    rw [Loop.scanAll_eq] at hscan'
    have hapart := Loop.unmixed_iff_of_scan
      (fun m hm => ⟨(fieldsApart_iff_target m none hm).mpr (methodTarget_of_none m hm),
        methodTarget_of_none m hm⟩)
      (fun m found hm => fieldsApart_iff_target m (some found) hm) hscan'
    rw [MethodsApart, hapart, routeTarget, firstMethod]
    cases result with
    | none =>
      rw [hscan] at h
      have hnone := firstMethod_of_scan hscan
      rw [firstMethod] at hnone
      rw [hnone]
      exact ⟨fun _ => Option.some_inj.mp h, fun _ => rfl⟩
    | some found' =>
      obtain ⟨m, found'⟩ := found'
      simp only [hscan, Option.some_inj] at h
      subst h
      have hpattern := methodPattern_of_search (Loop.search_of_scan hscan')
      cases hfirst : (methodLoop anchored request).firstOwn (methodTarget anchored request)
          ((route.elementsNamed (text "methodMatch")).flatMap methodPatterns) with
      | none =>
        refine ⟨fun hfalse => absurd hfalse (by simp), fun hroute => ?_⟩
        -- a target of the route itself stands in no `methodMatch`
        obtain ⟨target, -, rfl⟩ := Option.map_eq_some_iff.mp hroute
        exact absurd hpattern (by simp [Place.methodPattern])
      | some found'' =>
        obtain ⟨m', found''⟩ := found''
        simp only [Option.some_inj, Prod.mk.injEq]
        refine ⟨fun heq => heq.2.symm, fun heq => ⟨?_, heq.symm⟩⟩
        have hpattern' := methodPattern_of_target (Loop.own_of_mem_firstOwn hfirst).2
        rw [heq, hpattern] at hpattern'
        exact Option.some_inj.mp hpattern'

/-- **When the first match is found**: where the search returns, its result is the first
match exactly if no flag that an earlier entry leaves standing counts for a later one. -/
theorem getRoute_sound_iff (pcre : Pcre) (anchored : Text → Option (Text → Bool))
    (requestUri : Url) (request : SipMessage) (doc : List XmlNode)
    (result : Option ((XmlNode × XmlNode) × Place × Target))
    (h : getRoute pcre anchored requestUri request doc = some result) :
    result = firstMatch pcre anchored requestUri request doc ↔
      RoutesApart pcre anchored requestUri request doc := by
  rw [RoutesApart, firstMatch]
  unfold getRoute at h
  cases hroutes : routesNode doc with
  | none =>
    rw [hroutes] at h
    exact iff_of_true (Option.some_inj.mp h).symm (by simp)
  | some routes =>
    simp only [hroutes] at h
    by_cases helement : routes.isElement = true
    · rw [if_pos helement, Loop.scanAll_eq] at h
      obtain ⟨⟨flag, result⟩, hscan, rfl⟩ := Option.map_eq_some_iff.mp h
      have hapart := Loop.unmixed_iff_of_scan
        (fun r hr => ⟨(methodsApart_iff_target r.1 none hr).mpr (routeTarget_of_none r.1 hr),
          routeTarget_of_none r.1 hr⟩)
        (fun r found hr => methodsApart_iff_target r.1 (some found) hr) hscan
      rw [Option.bind_some, ← hapart]
      simp only [Option.mem_some_iff, forall_eq']
    · simp [helement] at h

/-! ### Two routes -/

def leaf (tag content : String) : XmlNode := .element (text tag) [] [.text (text content)]

/-- The first route has a pattern for the host and no target; the second one is for
another host. -/
def twoRoutes : List XmlNode :=
  [.element (text "routes") []
    [.element (text "route") [] [leaf "routeFrom" "example.com"],
      .element (text "route") []
        [leaf "routeFrom" "other.example.net", leaf "routeTo" "192.168.0.2:5070"]]]

/-- The second route is for every host. -/
def ownRoute : List XmlNode :=
  [.element (text "routes") []
    [.element (text "route") [] [leaf "routeDnsWildcard" "*"],
      .element (text "route") []
        [leaf "routeDnsWildcard" "*", leaf "routeTo" "192.168.0.2:5070"]]]

/-- Two fields of one method: the first one matches and has no target. -/
def twoFields : List XmlNode :=
  [.element (text "routes") []
    [.element (text "route") []
      [leaf "routeFrom" "example.com",
        .element (text "methodMatch") []
          [leaf "methodPattern" "SUBSCRIBE",
            .element (text "fieldMatch") [(text "fieldName", text "Event")]
              [leaf "fieldPattern" "message-summary"],
            .element (text "fieldMatch") [(text "fieldName", text "Event")]
              [leaf "fieldPattern" "dialog", leaf "routeTo" "192.168.0.2:5090"]]]]]

/-- A request for the host. -/
def subscribe : SipMessage where
  firstHeaderLine := text "SUBSCRIBE sip:200@example.com SIP/2.0"
  nameValues := [(text "EVENT", text "message-summary")]

/-- The anchored expressions of the document: both are literal. -/
def literal (expression : Text) : Option (Text → Bool) := some expression.isPrefixOf

theorem getRoute_sound_iff_ownRoute : RoutesApart (fun _ _ => none) literal {} subscribe ownRoute :=
  (getRoute_sound_iff _ _ _ _ _ (firstMatch (fun _ _ => none) literal {} subscribe ownRoute)
    rfl).mp rfl

/-- A route is taken whose only domain pattern is for another host, and a field whose only
pattern is for another event. -/
theorem not_firstMatch_twoRoutes :
    ((getRoute (fun _ _ => none) literal (Url.ofText (text "sip:200@example.com") .addrSpec) subscribe
        twoRoutes).map (·.map (·.2.2.routeTo)),
      (firstMatch (fun _ _ => none) literal (Url.ofText (text "sip:200@example.com") .addrSpec)
        subscribe twoRoutes).map (·.2.2.routeTo)) =
        (some (some (text "192.168.0.2:5070")), none) ∧
      ((getRoute (fun _ _ => none) literal (Url.ofText (text "sip:200@example.com") .addrSpec)
          subscribe twoFields).map (·.map (·.2.2.routeTo)),
        (firstMatch (fun _ _ => none) literal (Url.ofText (text "sip:200@example.com") .addrSpec)
          subscribe twoFields).map (·.2.2.routeTo)) =
        (some (some (text "192.168.0.2:5090")), none) := by
  decide +kernel

end Search

end ForwardRules

end SipXRouter
