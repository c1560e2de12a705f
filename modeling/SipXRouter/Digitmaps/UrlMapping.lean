import SipXRouter.Search
import SipXRouter.Digitmaps.Patterns
import SipXRouter.Net.Url

/-!
# Rules by host and user

A rules document has `hostMatch` elements with patterns for the host, and in these
`userMatch` elements with patterns for the user.  `UrlMapping` looks for the first
`userMatch` that applies to a URI, with four loops inside one another.

## Design notes

* PCRE is a parameter: it refuses an expression, or gives the test that the expression
  stands for.  `RegEx` throws where PCRE refuses.
* A user pattern that ends with a single backslash sends the loop of
  `convertRegularExpression` past the end of the text.  Nothing is known of the outcome
  and the conversion has no result.
* `DnsWildcard` keeps its expressions in a table, which is left out: an expression does
  the same each time.
-/

namespace SipXRouter

/-! ## Documents -/

/-- A node of a document. -/
inductive XmlNode where
  | element (value : Text) (attributes : List (Text × Text)) (children : List XmlNode)
  | text (value : Text)
  | comment (value : Text)

namespace XmlNode

/-- `Value`: the tag of an element, the text of others. -/
def value : XmlNode → Text
  | element value _ _ => value
  | text value => value
  | comment value => value

def isElement : XmlNode → Bool
  | element .. => true
  | _ => false

def children : XmlNode → List XmlNode
  | element _ _ children => children
  | _ => []

/-- `Attribute`. -/
def attributeOf (n : XmlNode) (name : Text) : Option Text :=
  match n with
  | element _ attributes _ => attributes.lookup name
  | _ => none

/-- `FirstChild` and `NextSibling` with a value: the nodes that have it, of any type. -/
def childrenNamed (n : XmlNode) (tag : Text) : List XmlNode :=
  n.children.filter (·.value == tag)

/-- `IterateChildren` and a check of type and tag. -/
def elementsNamed (n : XmlNode) (tag : Text) : List XmlNode :=
  n.children.filter fun c => c.isElement && c.value == tag

/-- The text of an element that starts with one. -/
def content : XmlNode → Option Text
  | element _ _ (text value :: _) => some value
  | _ => none

end XmlNode

namespace UrlMapping

/-- The tests of PCRE by option `PCRE_CASELESS` and expression. -/
abbrev Pcre := (caseless : Bool) → (expression : Text) → Option (Text → Bool)

/-! ## Hosts -/

/-- `match_ports`. -/
def matchPorts (p1 p2 : Int) : Bool :=
  p1 == p2 ||
    ((p1 == 0 || p1 == portNone) && (p2 == 0 || p2 == portNone)) ||
    ((p1 == 0 || p1 == portNone) && (p2 == 5060 || p2 == 5061)) ||
    ((p1 == 5060 || p1 == 5061) && (p2 == 0 || p2 == portNone))

/-- The expression of a wildcard that is more than a star. -/
def wildcardExpression (wildcard : Text) : Text :=
  text "^(.+\\.)*\\Q" ++ wildcard.drop 2 ++ text "\\E(\\.?)$"

/-- The kinds of host patterns. -/
inductive HostFormat where
  | url | ipv4Subnet | dnsWildcard | unknown
deriving DecidableEq

/-- The attribute `format`, which is `url` by default. -/
def hostFormat (n : XmlNode) : HostFormat :=
  let fmt := (n.attributeOf (text "format")).getD (text "url")
  if caseEq fmt (text "url") then .url
  else if caseEq fmt (text "IPv4subnet") then .ipv4Subnet
  else if caseEq fmt (text "DnsWildcard") then .dnsWildcard
  else .unknown

/-! ## Users -/

/-- One character of a user pattern.  `seenNonConstant` tells whether the group of the
variable part has been opened. -/
def convertChar (specialEscaped seenNonConstant : Bool) (c : Byte) : Text × Bool :=
  let opened := if seenNonConstant then [] else text "("
  if c = byte '[' then
    if specialEscaped then (text "\\[", seenNonConstant) else (opened ++ text "[", true)
  else if c = byte '.' then
    if specialEscaped then (text "\\.", seenNonConstant) else (opened ++ text ".*", true)
  else if oneOf "+$?*()" c then
    ((if specialEscaped then text "\\" else []) ++ [byte '\\', c], seenNonConstant)
  else if c = byte 'x' then
    if specialEscaped then (text "x", seenNonConstant) else (opened ++ text ".", true)
  else if c = byte '\\' then (text "\\\\", seenNonConstant)
  else ([c], seenNonConstant)

/-- The loop of `convertRegularExpression`. -/
def convertLoop : (seenNonConstant : Bool) → Text → Option (Text × Bool)
  | seenNonConstant, [] => some ([], seenNonConstant)
  | seenNonConstant, c :: cs =>
    if c = byte '\\' then
      match cs with
      | [] => none
      | d :: ds =>
        let converted := convertChar true seenNonConstant d
        (convertLoop converted.2 ds).map fun r => (converted.1 ++ r.1, r.2)
    else
      let converted := convertChar false seenNonConstant c
      (convertLoop converted.2 cs).map fun r => (converted.1 ++ r.1, r.2)

/-- A user pattern as an expression, anchored at both ends; its variable part is a group. -/
def convertRegularExpression (source : Text) : Option Text :=
  (convertLoop false source).map fun r =>
    text "^" ++ r.1 ++ (if r.2 then text ")" else []) ++ text "$"

/-! ## The search -/

section Search

open Search

variable (pcre : Pcre) (requestUri : Url)

/-- The test of a host pattern; `none` is an exception. -/
def hostPatternTest (n : XmlNode) : Option Bool :=
  match n.content with
  | none => some false
  | some pattern =>
    match hostFormat n with
    | .url =>
      let xmlUrl := Url.ofText pattern .nameAddr
      some (caseEq xmlUrl.hostAddress requestUri.hostAddress &&
        matchPorts xmlUrl.hostPort requestUri.hostPort)
    | .ipv4Subnet => Patterns.IPv4subnet false requestUri.hostAddress pattern
    | .dnsWildcard =>
      if pattern = text "*" then some true
      else if (text "*.").isPrefixOf pattern then
        (pcre true (wildcardExpression pattern)).map fun search =>
          search requestUri.hostAddress
      else some false
    | .unknown => some false

/-- Whether the user of the request matches the expression for a pattern. -/
def userPatternTest (n : XmlNode) : Option Bool :=
  match n.content with
  | none => some false
  | some pattern => do
      let expression ← convertRegularExpression pattern
      let search ← pcre false expression
      return search requestUri.userId

/-- The loop over the patterns of a `userMatch`. -/
def searchUserPatterns (userMatch : XmlNode) : Option (Option XmlNode) :=
  first (fun n => guarded (userPatternTest pcre requestUri n) (some (some userMatch)))
    (userMatch.childrenNamed (text "userPattern"))

/-- The first `userMatch` with a pattern that the user matches. -/
def getUserMatchContainer (hostMatch : XmlNode) : Option (Option XmlNode) :=
  first (searchUserPatterns pcre requestUri) (hostMatch.elementsNamed (text "userMatch"))

/-- The loop over the patterns of a `hostMatch`. -/
def searchHostPatterns (hostMatch : XmlNode) : Option (Option XmlNode) :=
  first
    (fun n => guarded (hostPatternTest pcre requestUri n)
      (getUserMatchContainer pcre requestUri hostMatch))
    (hostMatch.childrenNamed (text "hostPattern"))

/-- The children of the first node that has the tag `mappings`, if it is an element. -/
def mappings (doc : List XmlNode) : List XmlNode :=
  match doc.find? (·.value == text "mappings") with
  | none => []
  | some n => n.elementsNamed (text "hostMatch")

/-- `getUserMatchContainerMatchingRequestURI` without a rule type. -/
def getUserMatchContainerMatchingRequestURI (doc : List XmlNode) : Option (Option XmlNode) :=
  first (searchHostPatterns pcre requestUri) (mappings doc)

/-! ## What should be found -/

/-- Whether a `hostMatch` has a host pattern that matches. -/
def hostMatches (hostMatch : XmlNode) : Bool :=
  (hostMatch.childrenNamed (text "hostPattern")).any fun n =>
    hostPatternTest pcre requestUri n == some true

/-- Whether a `userMatch` has a user pattern that matches. -/
def userMatches (userMatch : XmlNode) : Bool :=
  (userMatch.childrenNamed (text "userPattern")).any fun n =>
    userPatternTest pcre requestUri n == some true

/-- **The rule for a URI**: the first `userMatch` in the document that matches the user
and is in a `hostMatch` that matches the host. -/
def firstRule (doc : List XmlNode) : Option XmlNode :=
  (((mappings doc).filter (hostMatches pcre requestUri)).flatMap
    (·.elementsNamed (text "userMatch"))).find? (userMatches pcre requestUri)

/-! ## The search finds it -/

/-- The expressions that PCRE takes, of those that there are. -/
def Accepted (e : Bool × Option Text) : Prop := (e.2.bind (pcre e.1)).isSome = true

instance (e : Bool × Option Text) : Decidable (Accepted pcre e) :=
  inferInstanceAs (Decidable (_ = true))

/-- The expressions that are compiled for a user pattern. -/
def userExpressions (n : XmlNode) : List (Bool × Option Text) :=
  match n.content with
  | none => []
  | some pattern => [(false, convertRegularExpression pattern)]

/-- The expression of a host pattern, if it is a wildcard. -/
def hostExpressions (n : XmlNode) : List (Bool × Option Text) :=
  match n.content with
  | none => []
  | some pattern =>
    if hostFormat n = .dnsWildcard ∧ pattern ≠ text "*" ∧ (text "*.").isPrefixOf pattern then
      [(true, some (wildcardExpression pattern))]
    else []

/-- What the loops find: for a `userMatch`, and for a pattern of a `hostMatch`. -/
def foundUser (userMatch : XmlNode) : Option XmlNode :=
  (userMatch.childrenNamed (text "userPattern")).findSome? fun n =>
    if userPatternTest pcre requestUri n = some true then some userMatch else none

/-- The `userMatch` found below a `hostMatch` by one of its patterns. -/
def foundHost (hostMatch n : XmlNode) : Option XmlNode :=
  if hostPatternTest pcre requestUri n = some true then
    (hostMatch.elementsNamed (text "userMatch")).findSome? (foundUser pcre requestUri)
  else none

/-- The expressions tried for a `userMatch`, for a pattern of a `hostMatch`, and for the
document. -/
def triedForUser (userMatch : XmlNode) : List (Bool × Option Text) :=
  visited userExpressions
    (fun n => if userPatternTest pcre requestUri n = some true then some userMatch else none)
    (userMatch.childrenNamed (text "userPattern"))

/-- The expressions compiled while one pattern of a `hostMatch` is looked at. -/
def triedForHost (hostMatch n : XmlNode) : List (Bool × Option Text) :=
  hostExpressions n ++
    if hostPatternTest pcre requestUri n = some true then
      visited (triedForUser pcre requestUri) (foundUser pcre requestUri)
        (hostMatch.elementsNamed (text "userMatch"))
    else []

/-- The expressions compiled while a document is searched. -/
def triedExpressions (doc : List XmlNode) : List (Bool × Option Text) :=
  visited
    (fun hostMatch => visited (triedForHost pcre requestUri hostMatch)
      (foundHost pcre requestUri hostMatch) (hostMatch.childrenNamed (text "hostPattern")))
    (fun hostMatch => (hostMatch.childrenNamed (text "hostPattern")).findSome?
      (foundHost pcre requestUri hostMatch))
    (mappings doc)

theorem isSome_userPatternTest (n : XmlNode) :
    (userPatternTest pcre requestUri n).isSome ↔ ∀ e ∈ userExpressions n, Accepted pcre e := by
  unfold userPatternTest userExpressions Accepted
  cases n.content with
  | none => simp
  | some pattern =>
    cases hconvert : convertRegularExpression pattern with
    | none => simp [hconvert]
    | some expression => cases hsearch : pcre false expression <;> simp [hconvert, hsearch]

theorem isSome_hostPatternTest (n : XmlNode) :
    (hostPatternTest pcre requestUri n).isSome ↔ ∀ e ∈ hostExpressions n, Accepted pcre e := by
  unfold hostPatternTest hostExpressions Accepted
  cases n.content with
  | none => simp
  | some pattern =>
    cases hostFormat n with
    | url => simp
    | ipv4Subnet =>
      obtain ⟨b, hb⟩ := Patterns.exists_iPv4subnet false requestUri.hostAddress pattern
      simp [hb]
    | unknown => simp
    | dnsWildcard =>
      by_cases hstar : pattern = text "*"
      · simp [hstar]
      · by_cases hprefix : (text "*.").isPrefixOf pattern = true
        · cases hsearch : pcre true (wildcardExpression pattern) <;>
            simp [hstar, hprefix, hsearch]
        · simp [hstar, hprefix]

theorem reads_searchUserPatterns :
    Reads (Accepted pcre) (searchUserPatterns pcre requestUri) (foundUser pcre requestUri)
      (triedForUser pcre requestUri) := by
  have hnodes (userMatch : XmlNode) :=
    (Reads.tested (isSome_userPatternTest pcre requestUri) userMatch).first
  exact ⟨fun userMatch => (hnodes userMatch).some_of _,
    fun userMatch => (hnodes userMatch).none_of _⟩

theorem reads_searchHostPatterns :
    Reads (Accepted pcre) (searchHostPatterns pcre requestUri)
      (fun hostMatch => (hostMatch.childrenNamed (text "hostPattern")).findSome?
        (foundHost pcre requestUri hostMatch))
      fun hostMatch => visited (triedForHost pcre requestUri hostMatch)
        (foundHost pcre requestUri hostMatch) (hostMatch.childrenNamed (text "hostPattern")) := by
  have husers := (reads_searchUserPatterns pcre requestUri).first
  have hnodes (hostMatch : XmlNode) :=
    (Reads.guarded (isSome_hostPatternTest pcre requestUri)
      (husers.some_of (hostMatch.elementsNamed (text "userMatch")))
      (husers.none_of (hostMatch.elementsNamed (text "userMatch")))).first
  exact ⟨fun hostMatch => (hnodes hostMatch).some_of _,
    fun hostMatch => (hnodes hostMatch).none_of _⟩

/-- A `userMatch` is found by its own patterns. -/
theorem findSome?_foundUser (userMatchNodes : List XmlNode) :
    userMatchNodes.findSome? (foundUser pcre requestUri) =
      userMatchNodes.find? (userMatches pcre requestUri) := by
  have hfound : foundUser pcre requestUri = Option.guard (userMatches pcre requestUri) := by
    funext userMatch
    rw [foundUser, findSome?_ite, Option.guard]
    simp only [userMatches, beq_eq_decide]
  rw [hfound, List.findSome?_guard]

/-- What is found in a `hostMatch` whose host patterns match. -/
theorem findSome?_foundHost (hostMatch : XmlNode) :
    (hostMatch.childrenNamed (text "hostPattern")).findSome? (foundHost pcre requestUri hostMatch) =
      if hostMatches pcre requestUri hostMatch then
        (hostMatch.elementsNamed (text "userMatch")).find? (userMatches pcre requestUri)
      else none := by
  unfold foundHost
  rw [findSome?_ite, findSome?_foundUser]
  simp only [hostMatches, beq_eq_decide]

/-- **The search** finds the rule, or breaks off at an expression it tried. -/
theorem reads_search :
    Reads (Accepted pcre) (getUserMatchContainerMatchingRequestURI pcre requestUri)
      (firstRule pcre requestUri) (triedExpressions pcre requestUri) := by
  have hdoc := (reads_searchHostPatterns pcre requestUri).first
  have hrule (doc : List XmlNode) : firstRule pcre requestUri doc =
      (mappings doc).findSome? fun hostMatch =>
        (hostMatch.childrenNamed (text "hostPattern")).findSome?
          (foundHost pcre requestUri hostMatch) := by
    rw [firstRule, find?_flatMap_filter]
    simp only [findSome?_foundHost]
  refine ⟨fun doc hsound => ?_, fun doc => hdoc.none_of (mappings doc)⟩
  rw [hrule]
  exact hdoc.some_of (mappings doc) hsound

end Search

end UrlMapping

end SipXRouter
