import Mathlib.Data.List.Sigma
import SipXRouter.Run
import SipXRouter.Net.UrlParse

/-!
# The store of published event content

`SipPublishContentMgr` keeps the bodies that an event server sends in its NOTIFYs.  Content is
kept for a resource and an event type key, or as a default for all resources, and both in two
flavors, full and partial state.  Behind this interface are four `UtlHashBag`s whose entries are
found by one text, the resource and the event type key with a control-A between them, and two
maps with *default constructors*: objects that may publish content for a resource that has none.

An observer of an event type is called while a change is made, and may read the store from
inside the call.  When `unpublish` reveals default content, the observer is shown the content
that is being removed: the containers of the resource are swapped for the time of the call.

## Design notes

A container is owned by one bag and is found by its text alone, so a bag is a list of texts with
contents.  `UtlHashBag::insert` puts an entry in front of its equals and `find` and `remove` take
the first; the reordering of equal entries when a bag grows is not modelled.  `removeReference`
is called for containers that are the first of their text at that point, and is `remove` here.
A default constructor may answer differently each time, so it is given the number of the call.
-/

namespace SipXRouter.PublishContent

open List Pattern Url

/-- `HttpBody`: its MIME type and its bytes. -/
structure HttpBody where
  contentType : Text
  bytes : Text
  deriving DecidableEq

/-- `CONTENT_KEY_SEPARATOR`. -/
def contentKeySeparator : Byte := 1

/-- An event type key, which may not contain the separator. -/
structure EventTypeKey where
  text : Text
  noSeparator : contentKeySeparator ∉ text
  deriving DecidableEq

/-- What a default constructor publishes for the resource it is called for. -/
structure Generated where
  fullState : Bool
  content : List HttpBody
  deriving DecidableEq

/-- `SipPublishContentMgrDefaultConstructor::generateDefaultContent`: what it publishes for a
resource, an event type key and an event type, at its `n`-th call. -/
abbrev Constructor := Nat → Text → EventTypeKey → Text → List Generated

/-- The four stores: `mContentEntries` and `mPartialContentEntries`, and
`mDefaultContentEntries` and `mDefaultPartialContentEntries`. -/
inductive Store where
  | resource (fullState : Bool)
  | defaults (fullState : Bool)
  deriving DecidableEq

/-- The flavor a store is for. -/
def Store.fullState : Store → Bool
  | .resource fullState => fullState
  | .defaults fullState => fullState

/-- A `UtlHashBag` of `PublishContentContainer`s. -/
abbrev Bag := List (Σ _ : Text, List HttpBody)

/-- The manager with its bags of contents and of defaults. -/
structure SipPublishContentMgr where
  entries : Store → Bag := fun _ => []
  /-- `mDefaultContentConstructors` and `mDefaultPartialContentConstructors` -/
  defaultConstructors : Bool → List (Σ _ : Text, Constructor) := fun _ => []
  /-- the event types in `mEventContentCallbacks` -/
  eventContentCallbacks : List Text := []
  /-- the number of calls of default constructors so far -/
  calls : Nat := 0

/-- The arguments of `getContent`. -/
structure Query where
  resourceId : Text
  eventTypeKey : EventTypeKey
  eventType : Text
  fullState : Bool
  acceptHeaderValue : Text
  deriving DecidableEq

/-- What `getContent` hands back; `availableMediaTypes` is what it writes, if anything. -/
structure Answer where
  content : Option HttpBody
  isDefaultContent : Bool
  availableMediaTypes : Option Text
  deriving DecidableEq

/-! ## Choosing a body -/

/-- `UtlString::findToken` with the delimiter `,` and the suffix `;`. -/
def findToken (token s : Text) : Bool :=
  (search (cat [alt bol (lit ","), sws, noCase (cString token), sws,
    alt (lit ",") (alt (lit ";") eol)]) (cString s)).isSome

/-- The value of the `type` parameter of a MIME type. -/
def rootType (contentType : Text) : Option Text :=
  match contentType.tails.find? (fun t => caseEq (t.take 6) (text ";type=")) with
  | none => none
  | some t =>
    match t.drop 6 with
    | [] => some []
    | c :: cs =>
      if c = byte '"' then
        if cs.contains (byte '"') then some (cs.takeWhile (· != byte '"')) else none
      else some ((c :: cs).takeWhile (· != byte ';'))

/-- Whether a body of this MIME type may be sent to someone who accepts these types. -/
def isAcceptable (acceptHeaderValue contentType : Text) : Bool :=
  let baseContentType := contentType.takeWhile (· != byte ';')
  findToken baseContentType acceptHeaderValue &&
    (!caseEq baseContentType (text "multipart/related") ||
      (rootType contentType).any fun t => findToken t acceptHeaderValue)

/-- The loop that writes `availableMediaTypes`. -/
def mediaTypes (content : List HttpBody) : Text :=
  content.foldl (fun types b =>
    (if types = [] then types else types ++ [byte ',']) ++ b.contentType) []

def acceptAllTypes : Text := text " "

/-- The choice within a container, the second half of `getContent`. -/
def chooseContent (acceptHeaderValue : Text) (isDefaultContent : Bool) :
    Option (List HttpBody) → Answer
  | none => ⟨none, isDefaultContent, some []⟩
  | some content =>
    if acceptHeaderValue = acceptAllTypes then
      match content.head? with
      | some b => ⟨some b, isDefaultContent, none⟩
      | none => ⟨none, isDefaultContent, some []⟩
    else
      match content.find? fun b => isAcceptable acceptHeaderValue b.contentType with
      | some b => ⟨some b, isDefaultContent, none⟩
      | none => ⟨none, isDefaultContent, some (mediaTypes content)⟩

/-! ## The manager -/

/-- The text under which content is found; a default has no resource. -/
def contentKey (resourceId : Text) (eventTypeKey : EventTypeKey) : Text :=
  resourceId ++ contentKeySeparator :: eventTypeKey.text

namespace SipPublishContentMgr

/-- One of the four bags, changed. -/
def setBag (m : SipPublishContentMgr) (s : Store) (b : Bag) : SipPublishContentMgr :=
  { m with entries := Function.update m.entries s b }

/-- The content in a bag. -/
def find (m : SipPublishContentMgr) (s : Store) (key : Text) : Option (List HttpBody) :=
  (m.entries s).dlookup key

/-- Find the container or make one, and give it new content. -/
def store (m : SipPublishContentMgr) (s : Store) (key : Text) (content : List HttpBody) :
    SipPublishContentMgr :=
  match m.find s key with
  | none => m.setBag s (⟨key, content⟩ :: m.entries s)
  | some _ => m.setBag s ((m.entries s).kreplace key content)

/-- The constructor for an event type, full or partial. -/
def constructorOf (m : SipPublishContentMgr) (fullState : Bool) (eventTypeKey : EventTypeKey) :
    Option Constructor :=
  (m.defaultConstructors fullState).dlookup (contentKey [] eventTypeKey)

/-- The constructor publishes what it makes for the resource. -/
def generateDefaultContent (m : SipPublishContentMgr) (constructor : Option Constructor)
    (resourceId : Text) (eventTypeKey : EventTypeKey) (eventType : Text) : SipPublishContentMgr :=
  match constructor with
  | none => m
  | some c =>
    (c m.calls resourceId eventTypeKey eventType).foldl
      (fun m g => m.store (.resource g.fullState) (contentKey resourceId eventTypeKey) g.content)
      { m with calls := m.calls + 1 }

/-- `getContent`.  The fixed default is looked up in `mDefaultContentEntries` for both
flavors. -/
def getContent (m : SipPublishContentMgr) (q : Query) : SipPublishContentMgr × Answer :=
  let key := contentKey q.resourceId q.eventTypeKey
  match m.find (.resource q.fullState) key with
  | some content => (m, chooseContent q.acceptHeaderValue false (some content))
  | none =>
    let m' := m.generateDefaultContent (m.constructorOf q.fullState q.eventTypeKey)
      q.resourceId q.eventTypeKey q.eventType
    match m'.find (.resource q.fullState) key with
    | some content => (m', chooseContent q.acceptHeaderValue true (some content))
    | none =>
      let content := m'.find (.defaults true) (contentKey [] q.eventTypeKey)
      (m', chooseContent q.acceptHeaderValue content.isSome content)

/-- The callback of an observer, which reads what it wants to. -/
def callback (m : SipPublishContentMgr) (asked : List Query) : SipPublishContentMgr :=
  asked.foldl (fun m q => (m.getContent q).1) m

/-- Whether an observer is set for an event type. -/
def isObserved (m : SipPublishContentMgr) (eventType : Text) : Bool :=
  m.eventContentCallbacks.contains eventType

/-- `publish`; without a resource it is what `publishDefault` calls. -/
def publish (m : SipPublishContentMgr) (resourceId : Option Text) (eventTypeKey : EventTypeKey)
    (eventType : Text) (content : List HttpBody) (fullState noNotify : Bool)
    (asked : List Query) : SipPublishContentMgr :=
  match resourceId with
  | some resourceId =>
    let m' := m.store (.resource fullState) (contentKey resourceId eventTypeKey) content
    if !noNotify && m'.isObserved eventType then m'.callback asked else m'
  | none => m.store (.defaults fullState) (contentKey [] eventTypeKey) content

/-- `publishDefault` with bodies. -/
def publishDefault (m : SipPublishContentMgr) (eventTypeKey : EventTypeKey) (eventType : Text)
    (content : List HttpBody) (fullState : Bool) : SipPublishContentMgr :=
  m.publish none eventTypeKey eventType content fullState false []

/-- The old constructor goes, and a new one comes if there is one. -/
def setConstructor (m : SipPublishContentMgr) (fullState : Bool) (eventTypeKey : EventTypeKey)
    (constructor : Option Constructor) : SipPublishContentMgr :=
  let key := contentKey [] eventTypeKey
  let others := (m.defaultConstructors fullState).kerase key
  let constructors := (constructor.map fun c => (⟨key, c⟩ : Σ _ : Text, Constructor)).toList ++ others
  { m with defaultConstructors := Function.update m.defaultConstructors fullState constructors }

/-- `publishDefault` with a default constructor. -/
def publishDefaultConstructor (m : SipPublishContentMgr) (eventTypeKey : EventTypeKey)
    (constructor : Option Constructor) (fullState : Bool) : SipPublishContentMgr :=
  m.setConstructor fullState eventTypeKey constructor

/-- `remove` or `removeReference` on a bag. -/
def remove (m : SipPublishContentMgr) (s : Store) (key : Text) : SipPublishContentMgr :=
  m.setBag s ((m.entries s).kerase key)

/-- `insert` on a bag, of a container that may be missing. -/
def insert (m : SipPublishContentMgr) (s : Store) (key : Text) :
    Option (List HttpBody) → SipPublishContentMgr
  | none => m
  | some content => m.setBag s (⟨key, content⟩ :: m.entries s)

/-- Take a container out that was put in, if there was one. -/
def removeIf (m : SipPublishContentMgr) (s : Store) (key : Text) :
    Option (List HttpBody) → SipPublishContentMgr
  | none => m
  | some _ => m.remove s key

/-- The part of `unpublish` that takes the containers of a resource out and calls the default
constructors. -/
def regenerate (m : SipPublishContentMgr) (resourceId : Text) (eventTypeKey : EventTypeKey)
    (eventType : Text) : SipPublishContentMgr :=
  let key := contentKey resourceId eventTypeKey
  let m₁ := (m.remove (.resource true) key).remove (.resource false) key
  let m₂ := m₁.generateDefaultContent (m₁.constructorOf true eventTypeKey)
    resourceId eventTypeKey eventType
  m₂.generateDefaultContent (m₂.constructorOf false eventTypeKey) resourceId eventTypeKey eventType

/-- The part of `unpublish` that calls the observer when default content has been revealed.  The
observer is shown the content that goes away, and then both new containers go into the store of
the full state. -/
def showPrevious (m : SipPublishContentMgr) (key : Text) (content partialContent : Option (List HttpBody))
    (asked : List Query) : SipPublishContentMgr :=
  let newContent := m.find (.resource true) key
  let m₁ := m.removeIf (.resource true) key newContent
  let newPartialContent := m₁.find (.resource false) key
  let m₂ := m₁.remove (.resource false) key
  let m₃ := (m₂.insert (.resource true) key content).insert (.resource false) key partialContent
  let m₄ := m₃.callback asked
  let m₅ := (m₄.removeIf (.resource true) key content).removeIf (.resource false) key partialContent
  (m₅.insert (.resource true) key newContent).insert (.resource true) key newPartialContent

/-- `unpublish`; without a resource it is what `unpublishDefault` calls. -/
def unpublish (m : SipPublishContentMgr) (resourceId : Option Text) (eventTypeKey : EventTypeKey)
    (eventType : Text) (asked : List Query) : SipPublishContentMgr :=
  match resourceId with
  | some resourceId =>
    let key := contentKey resourceId eventTypeKey
    let content := m.find (.resource true) key
    let partialContent := m.find (.resource false) key
    let new := m.regenerate resourceId eventTypeKey eventType
    if new.isObserved eventType then
      let newContent := new.find (.resource true) key
      let defaultContent := new.find (.defaults true) (contentKey [] eventTypeKey)
      if newContent.isSome || defaultContent.isSome then
        new.showPrevious key content partialContent asked
      else new.callback asked
    else new
  | none =>
    (m.remove (.defaults true) (contentKey [] eventTypeKey)).setConstructor true eventTypeKey none

/-- `unpublishDefault`, which has no use for its last argument. -/
def unpublishDefault (m : SipPublishContentMgr) (eventTypeKey : EventTypeKey) (eventType : Text)
    (_fullState : Bool) : SipPublishContentMgr :=
  m.unpublish none eventTypeKey eventType []

/-- `setContentChangeObserver`, with a callback function or without. -/
def setContentChangeObserver (m : SipPublishContentMgr) (eventType : Text) (callbackFunction : Bool) :
    SipPublishContentMgr :=
  if eventType = [] then m
  else
    let callbacks := m.eventContentCallbacks.erase eventType
    { m with eventContentCallbacks := if callbackFunction then eventType :: callbacks else callbacks }

/-- `getPublished`: the bodies, and the default constructor where no resource is given. -/
def getPublished (m : SipPublishContentMgr) (resourceId : Option Text)
    (eventTypeKey : EventTypeKey) (fullState : Bool) : List HttpBody × Option Constructor :=
  match resourceId with
  | some resourceId =>
    ((m.find (.resource fullState) (contentKey resourceId eventTypeKey)).getD [], none)
  | none =>
    ((m.find (.defaults fullState) (contentKey [] eventTypeKey)).getD [],
      m.constructorOf fullState eventTypeKey)

end SipPublishContentMgr

/-- The calls of the public interface, each with what the observer reads if it is called. -/
inductive Op where
  | publish (resourceId : Text) (eventTypeKey : EventTypeKey) (eventType : Text)
      (content : List HttpBody) (fullState noNotify : Bool) (asked : List Query)
  | publishDefault (eventTypeKey : EventTypeKey) (eventType : Text) (content : List HttpBody)
      (fullState : Bool)
  | publishDefaultConstructor (eventTypeKey : EventTypeKey) (constructor : Option Constructor)
      (fullState : Bool)
  | unpublish (resourceId : Text) (eventTypeKey : EventTypeKey) (eventType : Text)
      (asked : List Query)
  | unpublishDefault (eventTypeKey : EventTypeKey) (eventType : Text) (fullState : Bool)
  | setContentChangeObserver (eventType : Text) (callbackFunction : Bool)
  | getContent (q : Query)

/-- One call. -/
def step (m : SipPublishContentMgr) : Op → SipPublishContentMgr
  | .publish r k ty content full noNotify asked => m.publish (some r) k ty content full noNotify asked
  | .publishDefault k ty content full => m.publishDefault k ty content full
  | .publishDefaultConstructor k c full => m.publishDefaultConstructor k c full
  | .unpublish r k ty asked => m.unpublish (some r) k ty asked
  | .unpublishDefault k ty full => m.unpublishDefault k ty full
  | .setContentChangeObserver ty on => m.setContentChangeObserver ty on
  | .getContent q => (m.getContent q).1

/-! ## Four maps -/

/-- The abstract store: a map for each flavor of the content of resources and of the defaults,
keyed by resource and event type key (a default has the empty resource), and the constructors
and observers beside them. -/
@[ext]
structure Maps where
  content : Store → Text → EventTypeKey → Option (List HttpBody) := fun _ _ _ => none
  constructor : Bool → EventTypeKey → Option Constructor := fun _ _ => none
  observed : Text → Bool := fun _ => false
  calls : Nat := 0

namespace Maps

/-- Write one entry of one map. -/
def put (a : Maps) (s : Store) (r : Text) (k : EventTypeKey) (v : Option (List HttpBody)) : Maps :=
  { a with content := fun s' r' k' => if s' = s ∧ r' = r ∧ k' = k then v else a.content s' r' k' }

/-- What a default constructor publishes goes into the map of its flavor. -/
def generate (a : Maps) (constructor : Option Constructor) (r : Text) (k : EventTypeKey)
    (ty : Text) : Maps :=
  match constructor with
  | none => a
  | some c =>
    (c a.calls r k ty).foldl (fun a g => a.put (.resource g.fullState) r k (some g.content))
      { a with calls := a.calls + 1 }

/-- Content of the resource, or else what the constructor of the flavor publishes, or else the
default of the flavor. -/
def getContent (a : Maps) (q : Query) : Maps × Answer :=
  match a.content (.resource q.fullState) q.resourceId q.eventTypeKey with
  | some content => (a, chooseContent q.acceptHeaderValue false (some content))
  | none =>
    let a' := a.generate (a.constructor q.fullState q.eventTypeKey) q.resourceId q.eventTypeKey
      q.eventType
    match a'.content (.resource q.fullState) q.resourceId q.eventTypeKey with
    | some content => (a', chooseContent q.acceptHeaderValue true (some content))
    | none =>
      let content := a'.content (.defaults q.fullState) [] q.eventTypeKey
      (a', chooseContent q.acceptHeaderValue content.isSome content)

def getPublished (a : Maps) (r : Option Text) (k : EventTypeKey) (fullState : Bool) :
    List HttpBody × Option Constructor :=
  match r with
  | some r => ((a.content (.resource fullState) r k).getD [], none)
  | none => ((a.content (.defaults fullState) [] k).getD [], a.constructor fullState k)

def callback (a : Maps) (asked : List Query) : Maps :=
  asked.foldl (fun a q => (a.getContent q).1) a

/-- Both flavors of a resource at once. -/
def putBoth (a : Maps) (r : Text) (k : EventTypeKey) (full part : Option (List HttpBody)) : Maps :=
  (a.put (.resource true) r k full).put (.resource false) r k part

/-- The content of a resource goes, and default content may take its place. -/
def regenerate (a : Maps) (r : Text) (k : EventTypeKey) (ty : Text) : Maps :=
  ((a.putBoth r k none none).generate (a.constructor true k) r k ty).generate
    (a.constructor false k) r k ty

/-- The content of a resource goes; if default content takes its place, the observer is shown
the old content for the last time. -/
def unpublish (a : Maps) (r : Text) (k : EventTypeKey) (ty : Text) (asked : List Query) : Maps :=
  let new := a.regenerate r k ty
  if a.observed ty then
    if (new.content (.resource true) r k).isSome || (a.content (.defaults true) [] k).isSome then
      ((new.putBoth r k (a.content (.resource true) r k) (a.content (.resource false) r k)).callback
        asked).putBoth r k (new.content (.resource true) r k) (new.content (.resource false) r k)
    else new.callback asked
  else new

def setConstructor (a : Maps) (fullState : Bool) (k : EventTypeKey) (c : Option Constructor) : Maps :=
  { a with constructor := fun f k' => if f = fullState ∧ k' = k then c else a.constructor f k' }

def observe (a : Maps) (ty : Text) (on : Bool) : Maps :=
  if ty = [] then a else { a with observed := fun ty' => if ty' = ty then on else a.observed ty' }

/-- One call on the maps: each writes the maps of its own flavor. -/
def step (a : Maps) : Op → Maps
  | .publish r k ty content full noNotify asked =>
    let a' := a.put (.resource full) r k (some content)
    if !noNotify && a.observed ty then a'.callback asked else a'
  | .publishDefault k _ content full => a.put (.defaults full) [] k (some content)
  | .publishDefaultConstructor k c full => a.setConstructor full k c
  | .unpublish r k ty asked => a.unpublish r k ty asked
  | .unpublishDefault k _ full => (a.put (.defaults full) [] k none).setConstructor full k none
  | .setContentChangeObserver ty on => a.observe ty on
  | .getContent q => (a.getContent q).1

end Maps

/-! ## Where they agree -/

/-- What the two constructors of an event type key publish when the content of a resource
goes. -/
def generated (m : SipPublishContentMgr) (r : Text) (k : EventTypeKey) (ty : Text) :
    List Generated :=
  let full := m.constructorOf true k
  let part := m.constructorOf false k
  (full.map fun c => c m.calls r k ty).getD [] ++
    (part.map fun c => c (if full.isSome then m.calls + 1 else m.calls) r k ty).getD []

/-- A read that calls no default constructor for this resource and key. -/
def Quiet (m : SipPublishContentMgr) (r : Text) (k : EventTypeKey) (q : Query) : Prop :=
  q.resourceId = r → q.eventTypeKey = k →
    (m.find (.resource q.fullState) (contentKey r k)).isSome ∨
      (m.constructorOf q.fullState k).isNone

/-- The calls on which the manager does what the maps do.  Where `unpublish` shows an observer
the old content, no partial content may be waiting to be put back, and nothing new may be
published in the meantime; and there may be nothing to remove for an `unpublishDefault` of
partial state. -/
def Sound (m : SipPublishContentMgr) : Op → Prop
  | .unpublish r k ty asked =>
    m.isObserved ty = true →
      (∃ g ∈ generated m r k ty, g.fullState = true) ∨
        (m.find (.defaults true) (contentKey [] k)).isSome →
      (∀ g ∈ generated m r k ty, g.fullState = true) ∧ ∀ q ∈ asked, Quiet m r k q
  | .unpublishDefault k _ fullState =>
    fullState = true ∨
      ∀ f, (m.find (.defaults f) (contentKey [] k)).isNone ∧ (m.constructorOf f k).isNone
  | .publish .. | .publishDefault .. | .publishDefaultConstructor .. |
    .setContentChangeObserver .. | .getContent .. => True

instance (m : SipPublishContentMgr) (r : Text) (k : EventTypeKey) (q : Query) :
    Decidable (Quiet m r k q) :=
  inferInstanceAs (Decidable (_ → _ → _))

instance decidableSound (m : SipPublishContentMgr) : (op : Op) → Decidable (Sound m op)
  | .unpublish .. => inferInstanceAs (Decidable (_ → _ → _ ∧ _))
  | .unpublishDefault .. => inferInstanceAs (Decidable (_ ∨ ∀ _, _))
  | .publish .. | .publishDefault .. | .publishDefaultConstructor .. |
    .setContentChangeObserver .. | .getContent .. => inferInstanceAs (Decidable True)

/-- The reads that the manager answers as the maps do: those of full state, and those of partial
state that need not fall back to a fixed default, or where the two defaults are the same. -/
def SoundRead (m : SipPublishContentMgr) (q : Query) : Prop :=
  q.fullState = true ∨
    (m.find (.resource false) (contentKey q.resourceId q.eventTypeKey)).isSome ∨
    (∃ c, m.constructorOf false q.eventTypeKey = some c ∧
      ∃ g ∈ c m.calls q.resourceId q.eventTypeKey q.eventType, g.fullState = false) ∨
    m.find (.defaults true) (contentKey [] q.eventTypeKey) =
      m.find (.defaults false) (contentKey [] q.eventTypeKey)

/-- The manager stands for the maps. -/
structure Refines (m : SipPublishContentMgr) (a : Maps) : Prop where
  content : ∀ s r k, m.find s (contentKey r k) = a.content s r k
  constructor : ∀ fullState k, m.constructorOf fullState k = a.constructor fullState k
  observed : ∀ ty, m.isObserved ty = a.observed ty
  calls : m.calls = a.calls
  entries_nodup : ∀ s, (m.entries s).NodupKeys
  constructors_nodup : ∀ fullState, (m.defaultConstructors fullState).NodupKeys
  callbacks_nodup : m.eventContentCallbacks.Nodup

theorem contentKey_inj {r r' : Text} {k k' : EventTypeKey} :
    contentKey r k = contentKey r' k' ↔ r = r' ∧ k = k' := by
  constructor
  · intro h
    obtain ⟨k, hk⟩ := k
    obtain ⟨k', hk'⟩ := k'
    have hclass : ∀ {t : Text}, contentKeySeparator ∉ t → ∀ c ∈ t,
        (c != contentKeySeparator) = true := by
      intro t ht c hc
      rw [bne_iff_ne]
      rintro rfl
      exact ht hc
    rw [contentKey, contentKey, append_cons r, append_cons r'] at h
    obtain ⟨hr, rfl⟩ := append_inj_of_class_right (p := (· != contentKeySeparator)) (hclass hk)
      (hclass hk') (by simp) (by simp) h
    exact ⟨append_cancel_right hr, rfl⟩
  · rintro ⟨rfl, rfl⟩
    rfl

theorem dlookup_kreplace {l : Bag} {key : Text} (hmem : key ∈ l.keys) (v : List HttpBody)
    (key' : Text) :
    (l.kreplace key v).dlookup key' = if key' = key then some v else l.dlookup key' := by
  induction l with
  | nil => simp at hmem
  | cons x l ih =>
    obtain ⟨kx, vx⟩ := x
    by_cases hx : key = kx
    · subst hx
      have hreplace : kreplace key v (⟨key, vx⟩ :: l) = ⟨key, v⟩ :: l := by
        exact lookmap_cons_some _ _ (if_pos rfl)
      rw [hreplace]
      by_cases hkey : key' = key
      · subst hkey
        simp
      · rw [dlookup_cons_ne _ _ hkey, dlookup_cons_ne _ _ hkey, if_neg hkey]
    · have hreplace : kreplace key v (⟨kx, vx⟩ :: l) = ⟨kx, vx⟩ :: kreplace key v l := by
        exact lookmap_cons_none _ _ (if_neg hx)
      have hmem' : key ∈ l.keys := by simpa [hx] using hmem
      rw [hreplace]
      by_cases hkey : key' = kx
      · subst hkey
        rw [dlookup_cons_eq, dlookup_cons_eq, if_neg (Ne.symm hx)]
      · rw [dlookup_cons_ne _ _ hkey, dlookup_cons_ne _ _ hkey, ih hmem']

namespace SipPublishContentMgr

variable (m : SipPublishContentMgr) (s : Store)

theorem find_setBag (b : Bag) (s' : Store) (key : Text) :
    (m.setBag s b).find s' key = if s' = s then b.dlookup key else m.find s' key := by
  by_cases hs : s' = s
  · subst hs
    simp [find, setBag]
  · simp [find, setBag, hs]

end SipPublishContentMgr

namespace Maps

variable {a : Maps} {s s' : Store} {r r' : Text} {k k' : EventTypeKey} {v v' : Option (List HttpBody)}

theorem put_self (h : a.content s r k = v) : a.put s r k v = a := by
  subst h
  have hcontent : (a.put s r k (a.content s r k)).content = a.content := by
    funext s' r' k'
    simp only [put]
    split
    · next heq => rw [heq.1, heq.2.1, heq.2.2]
    · rfl
  exact congrArg (fun c => { a with content := c }) hcontent

theorem content_put (v : Option (List HttpBody)) :
    (a.put s r k v).content s' r' k' =
      if s' = s ∧ r' = r ∧ k' = k then v else a.content s' r' k' := rfl

theorem content_foldl_put_of_ne (gs : List Generated)
    (hne : ∀ g ∈ gs, ¬ (s' = .resource g.fullState ∧ r' = r ∧ k' = k)) :
    (gs.foldl (fun a g => a.put (.resource g.fullState) r k (some g.content)) a).content s' r' k' =
      a.content s' r' k' := by
  induction gs generalizing a with
  | nil => rfl
  | cons g gs ih =>
    rw [foldl_cons, ih fun g' hg' => hne g' (mem_cons_of_mem _ hg'), content_put,
      if_neg (hne g mem_cons_self)]

theorem isSome_foldl_put (gs : List Generated) (fullState : Bool) :
    ((gs.foldl (fun a g => a.put (.resource g.fullState) r k (some g.content)) a).content
        (.resource fullState) r k).isSome ↔
      (∃ g ∈ gs, g.fullState = fullState) ∨ (a.content (.resource fullState) r k).isSome := by
  induction gs generalizing a with
  | nil => simp
  | cons g gs ih =>
    rw [foldl_cons, ih, content_put]
    by_cases hg : fullState = g.fullState
    · simp [hg]
    · simp [hg, Ne.symm hg]

@[simp] theorem constructor_foldl_put (gs : List Generated) :
    (gs.foldl (fun a g => a.put (.resource g.fullState) r k (some g.content)) a).constructor =
      a.constructor := by
  induction gs generalizing a with
  | nil => rfl
  | cons g gs ih => rw [foldl_cons, ih, put]

@[simp] theorem observed_foldl_put (gs : List Generated) :
    (gs.foldl (fun a g => a.put (.resource g.fullState) r k (some g.content)) a).observed =
      a.observed := by
  induction gs generalizing a with
  | nil => rfl
  | cons g gs ih => rw [foldl_cons, ih, put]

@[simp] theorem calls_foldl_put (gs : List Generated) :
    (gs.foldl (fun a g => a.put (.resource g.fullState) r k (some g.content)) a).calls =
      a.calls := by
  induction gs generalizing a with
  | nil => rfl
  | cons g gs ih => rw [foldl_cons, ih, put]

variable (c : Option Constructor) (ty : Text)

@[simp] theorem constructor_generate : (a.generate c r k ty).constructor = a.constructor := by
  cases c <;> simp [generate]

@[simp] theorem observed_generate : (a.generate c r k ty).observed = a.observed := by
  cases c <;> simp [generate]

theorem calls_generate :
    (a.generate c r k ty).calls = if c.isSome then a.calls + 1 else a.calls := by
  cases c <;> simp [generate]

theorem content_generate_of_ne (hne : ¬ (r' = r ∧ k' = k)) :
    (a.generate c r k ty).content s' r' k' = a.content s' r' k' := by
  cases c with
  | none => rfl
  | some c => exact content_foldl_put_of_ne _ fun g _ h => hne h.2

theorem content_generate_defaults (fullState : Bool) :
    (a.generate c r k ty).content (.defaults fullState) r' k' =
      a.content (.defaults fullState) r' k' := by
  cases c with
  | none => rfl
  | some c => exact content_foldl_put_of_ne _ fun g _ h => by simp at h

theorem isSome_generate (fullState : Bool) :
    ((a.generate c r k ty).content (.resource fullState) r k).isSome ↔
      (∃ g ∈ (c.map fun c => c a.calls r k ty).getD [], g.fullState = fullState) ∨
        (a.content (.resource fullState) r k).isSome := by
  cases c with
  | none => simp [generate]
  | some c => exact isSome_foldl_put _ fullState

@[simp] theorem constructor_regenerate : (a.regenerate r k ty).constructor = a.constructor := by
  rw [regenerate, constructor_generate, constructor_generate]
  rfl

@[simp] theorem observed_regenerate : (a.regenerate r k ty).observed = a.observed := by
  rw [regenerate, observed_generate, observed_generate]
  rfl

theorem content_regenerate_defaults (fullState : Bool) :
    (a.regenerate r k ty).content (.defaults fullState) r' k' =
      a.content (.defaults fullState) r' k' := by
  rw [regenerate, content_generate_defaults, content_generate_defaults, putBoth, content_put,
    content_put, if_neg (by simp), if_neg (by simp)]

/-- What the constructors publish is what is there afterwards. -/
theorem isSome_regenerate (fullState : Bool) :
    ((a.regenerate r k ty).content (.resource fullState) r k).isSome ↔
      (∃ g ∈ ((a.constructor true k).map fun c => c a.calls r k ty).getD [],
        g.fullState = fullState) ∨
      ∃ g ∈ ((a.constructor false k).map fun c =>
        c (if (a.constructor true k).isSome then a.calls + 1 else a.calls) r k ty).getD [],
          g.fullState = fullState := by
  have hnone : ((a.putBoth r k none none).content (.resource fullState) r k).isSome = false := by
    cases fullState <;> simp [putBoth, content_put]
  have hcalls : (a.putBoth r k none none).calls = a.calls := rfl
  rw [regenerate, isSome_generate, isSome_generate, hnone, calls_generate, hcalls]
  simp only [Bool.false_eq_true, or_false]
  exact or_comm

@[simp] theorem constructor_getContent (q : Query) : (a.getContent q).1.constructor = a.constructor := by
  unfold getContent
  split
  · rfl
  · dsimp only
    split <;> simp

/-- Asking for content changes it only where a constructor has to make it. -/
theorem content_getContent {q : Query} (hq : q.resourceId = r → q.eventTypeKey = k →
      (a.content (.resource q.fullState) r k).isSome ∨ a.constructor q.fullState k = none) :
    (a.getContent q).1.content s r k = a.content s r k := by
  have hgenerate : a.content (.resource q.fullState) q.resourceId q.eventTypeKey = none →
      (a.generate (a.constructor q.fullState q.eventTypeKey) q.resourceId q.eventTypeKey
        q.eventType).content s r k = a.content s r k := by
    intro hnone
    by_cases hkey : r = q.resourceId ∧ k = q.eventTypeKey
    · obtain ⟨rfl, rfl⟩ := hkey
      rcases hq rfl rfl with hsome | hctor
      · simp [hnone] at hsome
      · rw [hctor]
        rfl
    · exact content_generate_of_ne _ _ hkey
  unfold getContent
  split
  · rfl
  · next hnone =>
      dsimp only
      split <;> exact hgenerate hnone

theorem content_callback (asked : List Query)
    (hasked : ∀ q ∈ asked, q.resourceId = r → q.eventTypeKey = k →
      (a.content (.resource q.fullState) r k).isSome ∨ a.constructor q.fullState k = none) :
    (a.callback asked).content s r k = a.content s r k := by
  unfold callback
  induction asked generalizing a with
  | nil => rfl
  | cons q asked ih =>
    have hkept : ∀ s, (a.getContent q).1.content s r k = a.content s r k :=
      fun s => content_getContent (hasked q mem_cons_self)
    rw [foldl_cons, ih, hkept]
    intro q' hq' hr hk
    rw [hkept, constructor_getContent]
    exact hasked q' (mem_cons_of_mem _ hq') hr hk

end Maps

namespace Refines

variable {m : SipPublishContentMgr} {a : Maps} (h : Refines m a)
include h

theorem setBag {s : Store} {b : Bag} (hb : b.NodupKeys) {r : Text} {k : EventTypeKey}
    {v : Option (List HttpBody)}
    (hfind : ∀ key, b.dlookup key = if key = contentKey r k then v else m.find s key) :
    Refines (m.setBag s b) (a.put s r k v) where
  content s' r' k' := by
    rw [m.find_setBag s, Maps.put]
    by_cases hs : s' = s
    · subst hs
      simp only [if_true, true_and, hfind, contentKey_inj, h.content]
    · simp [hs, h.content]
  constructor := h.constructor
  observed := h.observed
  calls := h.calls
  entries_nodup s' := by
    by_cases hs : s' = s
    · subst hs
      simpa [SipPublishContentMgr.setBag] using hb
    · simpa [SipPublishContentMgr.setBag, hs] using h.entries_nodup s'
  constructors_nodup := h.constructors_nodup
  callbacks_nodup := h.callbacks_nodup

theorem insert (s : Store) (r : Text) (k : EventTypeKey) (hnone : a.content s r k = none)
    (v : Option (List HttpBody)) : Refines (m.insert s (contentKey r k) v) (a.put s r k v) := by
  have hfresh : contentKey r k ∉ (m.entries s).keys := by
    rw [← dlookup_eq_none, ← hnone, ← h.content]
    rfl
  cases v with
  | none => rwa [Maps.put_self hnone]
  | some v =>
    refine h.setBag (nodupKeys_cons.mpr ⟨hfresh, h.entries_nodup s⟩) fun key => ?_
    by_cases hkey : key = contentKey r k
    · subst hkey
      simp
    · rw [dlookup_cons_ne _ _ hkey, if_neg hkey]
      rfl

theorem remove (s : Store) (r : Text) (k : EventTypeKey) :
    Refines (m.remove s (contentKey r k)) (a.put s r k none) := by
  refine h.setBag ((h.entries_nodup s).kerase _) fun key => ?_
  by_cases hkey : key = contentKey r k
  · subst hkey
    rw [dlookup_kerase _ (h.entries_nodup s), if_pos rfl]
  · rw [dlookup_kerase_ne hkey, if_neg hkey]
    rfl

theorem store (s : Store) (r : Text) (k : EventTypeKey) (v : List HttpBody) :
    Refines (m.store s (contentKey r k) v) (a.put s r k (some v)) := by
  unfold SipPublishContentMgr.store
  cases hfind : m.find s (contentKey r k) with
  | none => exact h.insert s r k ((h.content s r k).symm.trans hfind) (some v)
  | some old =>
    have hmem : contentKey r k ∈ (m.entries s).keys :=
      dlookup_isSome.mp (Option.isSome_of_mem hfind)
    refine h.setBag ((kreplace_nodupKeys _ _).mpr (h.entries_nodup s)) fun key => ?_
    exact dlookup_kreplace hmem v key

theorem foldl_store (gs : List Generated) (r : Text) (k : EventTypeKey) :
    Refines (gs.foldl (fun m g => m.store (.resource g.fullState) (contentKey r k) g.content) m)
      (gs.foldl (fun a g => a.put (.resource g.fullState) r k (some g.content)) a) := by
  induction gs generalizing m a with
  | nil => exact h
  | cons g gs ih => exact ih (h.store (.resource g.fullState) r k g.content)

/-- **A default constructor** publishes the same into both. -/
theorem generate (c : Option Constructor) (r : Text) (k : EventTypeKey) (ty : Text) :
    Refines (m.generateDefaultContent c r k ty) (a.generate c r k ty) := by
  cases c with
  | none => exact h
  | some c =>
    unfold SipPublishContentMgr.generateDefaultContent Maps.generate
    rw [h.calls]
    refine foldl_store ?_ _ r k
    exact ⟨h.content, h.constructor, h.observed, rfl, h.entries_nodup, h.constructors_nodup,
      h.callbacks_nodup⟩

theorem getContent (q : Query) : Refines (m.getContent q).1 (a.getContent q).1 := by
  have hgenerate := h.generate (m.constructorOf q.fullState q.eventTypeKey) q.resourceId
    q.eventTypeKey q.eventType
  unfold SipPublishContentMgr.getContent Maps.getContent
  dsimp only
  rw [h.content, ← h.constructor]
  cases a.content (.resource q.fullState) q.resourceId q.eventTypeKey with
  | some content => exact h
  | none =>
    dsimp only
    rw [hgenerate.content]
    split <;> exact hgenerate

/-- **A sound read** is answered alike. -/
theorem answer_getContent {q : Query} (hq : SoundRead m q) :
    (m.getContent q).2 = (a.getContent q).2 := by
  have hgenerate := h.generate (m.constructorOf q.fullState q.eventTypeKey) q.resourceId
    q.eventTypeKey q.eventType
  unfold SipPublishContentMgr.getContent Maps.getContent
  dsimp only
  rw [h.content, ← h.constructor]
  cases hcontent : a.content (.resource q.fullState) q.resourceId q.eventTypeKey with
  | some content => rfl
  | none =>
    dsimp only
    rw [hgenerate.content]
    cases hnew : (a.generate (m.constructorOf q.fullState q.eventTypeKey) q.resourceId
        q.eventTypeKey q.eventType).content (.resource q.fullState) q.resourceId q.eventTypeKey with
    | some content => rfl
    | none =>
      dsimp only
      rw [hgenerate.content, Maps.content_generate_defaults, Maps.content_generate_defaults]
      have hsame : a.content (.defaults true) [] q.eventTypeKey =
          a.content (.defaults q.fullState) [] q.eventTypeKey := by
        rw [SoundRead, h.content, h.content, h.content] at hq
        cases hfull : q.fullState with
        | true => rfl
        | false =>
          rw [hfull] at hcontent hnew hq
          rcases hq with hq | hq | ⟨c, hc, hpart⟩ | hq
          · exact absurd hq (by simp)
          · simp [hcontent] at hq
          · have hsome := (Maps.isSome_generate (a := a) (r := q.resourceId)
              (k := q.eventTypeKey) (m.constructorOf false q.eventTypeKey) q.eventType
              false).mpr (Or.inl (by simpa [hc, ← h.calls] using hpart))
            simp [hnew] at hsome
          · exact hq
      rw [hsame]

theorem callback (asked : List Query) : Refines (m.callback asked) (a.callback asked) := by
  unfold SipPublishContentMgr.callback Maps.callback
  induction asked generalizing m a with
  | nil => exact h
  | cons q asked ih => exact ih (h.getContent q)

theorem removeIf (s : Store) (r : Text) (k : EventTypeKey) {v : Option (List HttpBody)}
    (hv : v = none → a.content s r k = none) :
    Refines (m.removeIf s (contentKey r k) v) (a.put s r k none) := by
  cases v with
  | none => rwa [Maps.put_self (hv rfl)]
  | some v => exact h.remove s r k

/-- **The swap** around the call of the observer, when no partial content waits and the observer
calls no constructor for the resource. -/
theorem showPrevious {r : Text} {k : EventTypeKey} (content partialContent : Option (List HttpBody))
    (asked : List Query) (hpart : a.content (.resource false) r k = none)
    (hquiet : ∀ q ∈ asked, q.resourceId = r → q.eventTypeKey = k →
      (if q.fullState then content else partialContent).isSome ∨ a.constructor q.fullState k = none) :
    Refines (m.showPrevious (contentKey r k) content partialContent asked)
      (((a.putBoth r k content partialContent).callback asked).putBoth r k
        (a.content (.resource true) r k) (a.content (.resource false) r k)) := by
  have hfull := h.removeIf (.resource true) r k (v := m.find (.resource true) (contentKey r k))
    fun hnone => (h.content _ _ _).symm.trans hnone
  have hwaiting : (m.removeIf (.resource true) (contentKey r k)
      (m.find (.resource true) (contentKey r k))).find (.resource false) (contentKey r k) = none := by
    rw [hfull.content, Maps.content_put, if_neg (by simp), hpart]
  have hempty := hfull.remove (.resource false) r k
  have hold := (hempty.insert (.resource true) r k (by simp [Maps.content_put]) content).insert
    (.resource false) r k (by simp [Maps.content_put]) partialContent
  have hshown : ((((a.put (.resource true) r k none).put (.resource false) r k none).put
      (.resource true) r k content).put (.resource false) r k partialContent) =
      a.putBoth r k content partialContent := by
    refine Maps.ext (funext fun s => funext fun r' => funext fun k' => ?_) rfl rfl rfl
    simp only [Maps.putBoth, Maps.content_put]
    split_ifs <;> rfl
  rw [hshown] at hold
  have hcall := hold.callback asked
  -- the entries of the resource are the same after the call
  have hkept : ∀ s, ((a.putBoth r k content partialContent).callback asked).content s r k =
      (a.putBoth r k content partialContent).content s r k := by
    intro s
    refine Maps.content_callback asked fun q hq hr hk => ?_
    have hentry : (a.putBoth r k content partialContent).content (.resource q.fullState) r k =
        if q.fullState then content else partialContent := by
      cases q.fullState <;> simp [Maps.putBoth, Maps.content_put]
    rw [hentry]
    exact hquiet q hq hr hk
  have hback := (hcall.removeIf (.resource true) r k (v := content) fun hnone => by
    rw [hkept, hnone]; simp [Maps.putBoth, Maps.content_put]).removeIf (.resource false) r k
    (v := partialContent) fun hnone => by
      rw [Maps.content_put, if_neg (by simp), hkept, hnone]; simp [Maps.putBoth, Maps.content_put]
  have hdone := hback.insert (.resource true) r k (by simp [Maps.content_put])
    (m.find (.resource true) (contentKey r k))
  unfold SipPublishContentMgr.showPrevious
  dsimp only
  rw [hwaiting]
  refine cast (congrArg _ ?_) hdone
  refine Maps.ext (funext fun s => funext fun r' => funext fun k' => ?_) rfl rfl rfl
  simp only [Maps.putBoth, Maps.content_put, hpart, h.content]
  split_ifs <;> simp_all

theorem regenerate (r : Text) (k : EventTypeKey) (ty : Text) :
    Refines (m.regenerate r k ty) (a.regenerate r k ty) := by
  have hremoved := (h.remove (.resource true) r k).remove (.resource false) r k
  have hfull := hremoved.generate (a.constructor true k) r k ty
  unfold SipPublishContentMgr.regenerate
  dsimp only
  rw [hremoved.constructor true k, show ((a.put (.resource true) r k none).put (.resource false) r k
    none).constructor true k = a.constructor true k from rfl, hfull.constructor,
    Maps.constructor_generate]
  exact hfull.generate _ r k ty

/-- **`unpublish`** on a call that is sound. -/
theorem unpublish {r : Text} {k : EventTypeKey} {ty : Text} {asked : List Query}
    (hsound : Sound m (.unpublish r k ty asked)) :
    Refines (m.unpublish (some r) k ty asked) (a.unpublish r k ty asked) := by
  have hnew := h.regenerate r k ty
  have hsome (f : Bool) : ((a.regenerate r k ty).content (.resource f) r k).isSome ↔
      ∃ g ∈ generated m r k ty, g.fullState = f := by
    rw [Maps.isSome_regenerate]
    simp only [generated, h.constructor, h.calls, mem_append, or_and_right, exists_or]
  unfold SipPublishContentMgr.unpublish Maps.unpublish
  dsimp only
  rw [hnew.observed, hnew.content, hnew.content, h.content, h.content, Maps.observed_regenerate,
    Maps.content_regenerate_defaults]
  by_cases hobserved : a.observed ty = true
  · rw [if_pos hobserved, if_pos hobserved]
    split
    · next hreveals =>
        obtain ⟨hpart, hquiet⟩ := hsound ((h.observed ty).trans hobserved) (by
          rw [h.content, ← hsome true]
          simpa using hreveals)
        refine hnew.showPrevious _ _ asked ?_ fun q hq hr hk => ?_
        · rw [← Option.not_isSome_iff_eq_none, hsome false]
          rintro ⟨g, hg, hfalse⟩
          exact absurd (hpart g hg) (by simp [hfalse])
        · have hread := hquiet q hq hr hk
          rw [h.content, h.constructor] at hread
          rw [Maps.constructor_regenerate]
          cases hfull : q.fullState <;> simpa [hfull] using hread
    · exact hnew.callback asked
  · rw [if_neg hobserved, if_neg hobserved]
    exact hnew

theorem setConstructor (fullState : Bool) (k : EventTypeKey) (c : Option Constructor) :
    Refines (m.setConstructor fullState k c) (a.setConstructor fullState k c) := by
  have hnodup := (h.constructors_nodup fullState).kerase (contentKey [] k)
  have hkeys := notMem_keys_kerase (contentKey [] k) (h.constructors_nodup fullState)
  refine ⟨h.content, fun f k' => ?_, h.observed, h.calls, h.entries_nodup, fun f => ?_,
    h.callbacks_nodup⟩
  · rw [Maps.setConstructor]
    by_cases hf : f = fullState
    · subst hf
      simp only [SipPublishContentMgr.setConstructor, SipPublishContentMgr.constructorOf,
        Function.update_self, true_and]
      by_cases hk : k' = k
      · subst hk
        cases c with
        | none => simpa [dlookup_eq_none] using hkeys
        | some c => simp
      · have hne : contentKey [] k' ≠ contentKey [] k := fun heq => hk (contentKey_inj.mp heq).2
        rw [if_neg hk, ← h.constructor, SipPublishContentMgr.constructorOf]
        cases c with
        | none => exact dlookup_kerase_ne hne
        | some c => exact (dlookup_cons_ne _ _ hne).trans (dlookup_kerase_ne hne)
    · simpa [SipPublishContentMgr.setConstructor, SipPublishContentMgr.constructorOf, hf]
        using h.constructor f k'
  · by_cases hf : f = fullState
    · subst hf
      simp only [SipPublishContentMgr.setConstructor, Function.update_self]
      cases c with
      | none => exact hnodup
      | some c => exact nodupKeys_cons.mpr ⟨hkeys, hnodup⟩
    · simpa [SipPublishContentMgr.setConstructor, hf] using h.constructors_nodup f

theorem setContentChangeObserver (ty : Text) (on : Bool) :
    Refines (m.setContentChangeObserver ty on) (a.observe ty on) := by
  unfold SipPublishContentMgr.setContentChangeObserver Maps.observe
  by_cases hnull : ty = []
  · rwa [if_pos hnull, if_pos hnull]
  · rw [if_neg hnull, if_neg hnull]
    refine ⟨h.content, h.constructor, fun ty' => ?_, h.calls, h.entries_nodup, h.constructors_nodup, ?_⟩
    · have hobserved := h.observed ty'
      rw [SipPublishContentMgr.isObserved, Bool.eq_iff_iff, contains_iff_mem] at *
      have herase : ty' ∈ m.eventContentCallbacks.erase ty ↔ ty' ≠ ty ∧ ty' ∈ m.eventContentCallbacks :=
        h.callbacks_nodup.mem_erase_iff
      by_cases hty : ty' = ty
      · subst hty
        cases on <;> simp [herase]
      · cases on <;> simp [herase, hty, hobserved]
    · have hnodup := h.callbacks_nodup.erase ty
      have hfresh : ty ∉ m.eventContentCallbacks.erase ty := h.callbacks_nodup.not_mem_erase
      cases on with
      | false => exact hnodup
      | true => exact nodup_cons.mpr ⟨hfresh, hnodup⟩

/-- **One call** that is sound. -/
theorem step {op : Op} (hsound : Sound m op) : Refines (step m op) (a.step op) := by
  cases op with
  | publish r k ty content fullState noNotify asked =>
    have hstore := h.store (.resource fullState) r k content
    have hobserved := hstore.observed ty
    simp only [PublishContent.step, Maps.step, SipPublishContentMgr.publish]
    rw [hobserved, show (a.put (.resource fullState) r k (some content)).observed = a.observed from rfl]
    split
    · exact hstore.callback asked
    · exact hstore
  | publishDefault k ty content fullState => exact h.store (.defaults fullState) [] k content
  | publishDefaultConstructor k c fullState => exact h.setConstructor fullState k c
  | unpublish r k ty asked => exact h.unpublish hsound
  | unpublishDefault k ty fullState =>
    have hremoved := (h.remove (.defaults true) [] k).setConstructor true k none
    rcases hsound with rfl | hnothing
    · exact hremoved
    · -- there is nothing of either flavor to remove
      have hsame : ∀ f, (a.put (.defaults f) [] k none).setConstructor f k none = a := by
        intro f
        obtain ⟨hcontent, hconstructor⟩ := hnothing f
        rw [h.content, Option.isNone_iff_eq_none] at hcontent
        rw [h.constructor, Option.isNone_iff_eq_none] at hconstructor
        rw [Maps.put_self hcontent]
        refine Maps.ext rfl (funext fun f' => funext fun k' => ?_) rfl rfl
        simp only [Maps.setConstructor]
        split
        · next heq => rw [heq.1, heq.2, hconstructor]
        · rfl
      simp only [Maps.step]
      rw [hsame fullState, ← hsame true]
      exact hremoved
  | setContentChangeObserver ty on => exact h.setContentChangeObserver ty on
  | getContent q => exact h.getContent q

end Refines

theorem refines_empty : Refines {} {} :=
  ⟨fun _ _ _ => rfl, fun _ _ => rfl, fun _ => rfl, rfl, fun _ => nodupKeys_nil,
    fun _ => nodupKeys_nil, nodup_nil⟩

/-! ## Where the content comes from -/

/-- A constructor publishes only bodies that `P` admits for their flavor. -/
def Constructor.Publishes (P : Bool → HttpBody → Prop) (c : Constructor) : Prop :=
  ∀ n r k ty, ∀ g ∈ c n r k ty, ∀ b ∈ g.content, P g.fullState b

/-- A call publishes only bodies that `P` admits for their flavor. -/
def Op.Publishes (P : Bool → HttpBody → Prop) : Op → Prop
  | .publish _ _ _ content fullState _ _ => ∀ b ∈ content, P fullState b
  | .publishDefault _ _ content fullState => ∀ b ∈ content, P fullState b
  | .publishDefaultConstructor _ c _ => ∀ c' ∈ c, Constructor.Publishes P c'
  | .unpublish .. | .unpublishDefault .. | .setContentChangeObserver .. | .getContent .. => True

/-- All content of a flavor was published as that flavor. -/
structure Maps.From (P : Bool → HttpBody → Prop) (a : Maps) : Prop where
  content : ∀ s r k, ∀ bodies ∈ a.content s r k, ∀ b ∈ bodies, P s.fullState b
  constructor : ∀ f k, ∀ c ∈ a.constructor f k, Constructor.Publishes P c

namespace Maps.From

variable {P : Bool → HttpBody → Prop} {a : Maps} (h : a.From P)
include h

theorem put {s : Store} {r : Text} {k : EventTypeKey} {v : Option (List HttpBody)}
    (hv : ∀ bodies ∈ v, ∀ b ∈ bodies, P s.fullState b) : (a.put s r k v).From P where
  content s' r' k' bodies hbodies := by
    rw [content_put] at hbodies
    split at hbodies
    · next heq =>
        rw [heq.1]
        exact hv bodies hbodies
    · exact h.content s' r' k' bodies hbodies
  constructor := h.constructor

theorem foldl_put {gs : List Generated} (hgs : ∀ g ∈ gs, ∀ b ∈ g.content, P g.fullState b)
    (r : Text) (k : EventTypeKey) :
    (gs.foldl (fun a g => a.put (.resource g.fullState) r k (some g.content)) a).From P := by
  induction gs generalizing a with
  | nil => exact h
  | cons g gs ih =>
    refine ih (h.put ?_) fun g' hg' => hgs g' (mem_cons_of_mem _ hg')
    rintro bodies ⟨⟩
    exact hgs g mem_cons_self

theorem generate {c : Option Constructor} (hc : ∀ c' ∈ c, Constructor.Publishes P c') (r : Text)
    (k : EventTypeKey) (ty : Text) : (a.generate c r k ty).From P := by
  cases c with
  | none => exact h
  | some c =>
    have hstart : ({ a with calls := a.calls + 1 } : Maps).From P := ⟨h.content, h.constructor⟩
    exact hstart.foldl_put (hc c rfl a.calls r k ty) r k

theorem getContent (q : Query) : (a.getContent q).1.From P := by
  have hnew := h.generate (h.constructor q.fullState q.eventTypeKey) q.resourceId q.eventTypeKey
    q.eventType
  unfold Maps.getContent
  split
  · exact h
  · dsimp only
    split <;> exact hnew

theorem callback (asked : List Query) : (a.callback asked).From P := by
  unfold Maps.callback
  induction asked generalizing a with
  | nil => exact h
  | cons q asked ih => exact ih (h.getContent q)

theorem putBoth {r : Text} {k : EventTypeKey} {full part : Option (List HttpBody)}
    (hfull : ∀ bodies ∈ full, ∀ b ∈ bodies, P true b)
    (hpart : ∀ bodies ∈ part, ∀ b ∈ bodies, P false b) : (a.putBoth r k full part).From P :=
  (h.put (s := .resource true) hfull).put (s := .resource false) hpart

theorem unpublish (r : Text) (k : EventTypeKey) (ty : Text) (asked : List Query) :
    (a.unpublish r k ty asked).From P := by
  have hremoved : (a.putBoth r k none none).From P := h.putBoth (by simp) (by simp)
  have hnew : (a.regenerate r k ty).From P :=
    (hremoved.generate (h.constructor true k) r k ty).generate (h.constructor false k) r k ty
  unfold Maps.unpublish
  dsimp only
  split
  · split
    · exact ((hnew.putBoth (h.content (.resource true) r k)
        (h.content (.resource false) r k)).callback asked).putBoth
        (hnew.content (.resource true) r k) (hnew.content (.resource false) r k)
    · exact hnew.callback asked
  · exact hnew

theorem setConstructor {f : Bool} {k : EventTypeKey} {c : Option Constructor}
    (hc : ∀ c' ∈ c, Constructor.Publishes P c') : (a.setConstructor f k c).From P where
  content := h.content
  constructor f' k' c' hc' := by
    simp only [Maps.setConstructor] at hc'
    split at hc'
    · exact hc c' hc'
    · exact h.constructor f' k' c' hc'

theorem step {op : Op} (hop : op.Publishes P) : (a.step op).From P := by
  cases op with
  | publish r k ty content fullState noNotify asked =>
    have hput : (a.put (.resource fullState) r k (some content)).From P :=
      h.put (by rintro bodies ⟨⟩; exact hop)
    simp only [Maps.step]
    split
    · exact hput.callback asked
    · exact hput
  | publishDefault k ty content fullState => exact h.put (by rintro bodies ⟨⟩; exact hop)
  | publishDefaultConstructor k c fullState => exact h.setConstructor hop
  | unpublish r k ty asked => exact h.unpublish r k ty asked
  | unpublishDefault k ty fullState => exact (h.put (by simp)).setConstructor (by simp)
  | setContentChangeObserver ty on =>
    simp only [Maps.step, Maps.observe]
    split
    · exact h
    · exact ⟨h.content, h.constructor⟩
  | getContent q => exact h.getContent q

theorem published (r : Option Text) (k : EventTypeKey) (fullState : Bool) :
    ∀ b ∈ (a.getPublished r k fullState).1, P fullState b := by
  have hentry : ∀ s r, ∀ b ∈ (a.content s r k).getD [], P s.fullState b := by
    intro s r b hb
    cases hcontent : a.content s r k with
    | none => simp [hcontent] at hb
    | some bodies =>
      rw [hcontent] at hb
      exact h.content s r k bodies hcontent b hb
  cases r with
  | some r => exact hentry (.resource fullState) r
  | none => exact hentry (.defaults fullState) []

theorem answer (q : Query) : ∀ b ∈ (a.getContent q).2.content, P q.fullState b := by
  have hchoose : ∀ isDefault (bodies : Option (List HttpBody)),
      (∀ content ∈ bodies, ∀ b ∈ content, P q.fullState b) →
      ∀ b ∈ (chooseContent q.acceptHeaderValue isDefault bodies).content, P q.fullState b := by
    intro isDefault bodies hbodies b hb
    cases bodies with
    | none => simp [chooseContent] at hb
    | some content =>
      refine hbodies content rfl b ?_
      rw [chooseContent] at hb
      split at hb
      · cases hhead : content.head? with
        | none => simp [hhead] at hb
        | some b' =>
          simp only [hhead, Option.mem_some_iff] at hb
          exact hb ▸ mem_of_head? hhead
      · cases hfind : content.find? fun b => isAcceptable q.acceptHeaderValue b.contentType with
        | none => simp [hfind] at hb
        | some b' =>
          simp only [hfind, Option.mem_some_iff] at hb
          exact hb ▸ mem_of_find?_eq_some hfind
  have hnew := h.generate (h.constructor q.fullState q.eventTypeKey) q.resourceId q.eventTypeKey
    q.eventType
  unfold Maps.getContent
  split
  · next hcontent => exact hchoose _ _ (by rintro _ ⟨⟩; exact h.content _ _ _ _ hcontent)
  · dsimp only
    split
    · next hcontent => exact hchoose _ _ (by rintro _ ⟨⟩; exact hnew.content _ _ _ _ hcontent)
    · exact hchoose _ _ (hnew.content (.defaults q.fullState) [] q.eventTypeKey)

end Maps.From

/-- **The store as four maps.**  After every run of sound calls, `getPublished` and each sound
`getContent` answer as the maps do; what they return for a flavor was published as that flavor;
and a sound `unpublishDefault` takes the default of its key and flavor away and no other. -/
theorem published_as_maps {ops : List Op} (hsound : Run.AllAllowed step Sound {} ops) :
    (∀ r k fullState, (ops.foldl step {}).getPublished r k fullState =
      (ops.foldl Maps.step {}).getPublished r k fullState) ∧
    (∀ q, SoundRead (ops.foldl step {}) q →
      ((ops.foldl step {}).getContent q).2 = ((ops.foldl Maps.step {}).getContent q).2) ∧
    (∀ P : Bool → HttpBody → Prop, (∀ op ∈ ops, op.Publishes P) →
      (∀ r k fullState, ∀ b ∈ ((ops.foldl step {}).getPublished r k fullState).1, P fullState b) ∧
      ∀ q, SoundRead (ops.foldl step {}) q →
        ∀ b ∈ ((ops.foldl step {}).getContent q).2.content, P q.fullState b) ∧
    (∀ k ty fullState, Sound (ops.foldl step {}) (.unpublishDefault k ty fullState) →
      ∀ k' fullState', (step (ops.foldl step {}) (.unpublishDefault k ty fullState)).getPublished
          none k' fullState' =
        if k' = k ∧ fullState' = fullState then ([], none)
        else (ops.foldl step {}).getPublished none k' fullState') := by
  have hpublished : ∀ {m a}, Refines m a → ∀ r k fullState,
      m.getPublished r k fullState = a.getPublished r k fullState := by
    intro m a h r k fullState
    cases r with
    | some r => simp only [SipPublishContentMgr.getPublished, Maps.getPublished, h.content]
    | none =>
      simp only [SipPublishContentMgr.getPublished, Maps.getPublished, h.content, h.constructor]
  have hrun : Refines (ops.foldl step {}) (ops.foldl Maps.step {}) :=
    hsound.simulates refines_empty fun m a op h hop => h.step hop
  refine ⟨hpublished hrun, fun q hq => hrun.answer_getContent hq, fun P hops => ?_, ?_⟩
  · have hfrom : (ops.foldl Maps.step {}).From P := by
      refine foldlRecOn ops Maps.step ⟨by simp, by simp⟩ fun a ha op hop => ?_
      exact Maps.From.step ha (hops op hop)
    constructor
    · intro r k fullState b hb
      rw [hpublished hrun] at hb
      exact hfrom.published r k fullState b hb
    · intro q hq b hb
      rw [hrun.answer_getContent hq] at hb
      exact hfrom.answer q b hb
  · intro k ty fullState hop k' fullState'
    rw [hpublished (hrun.step hop), hpublished hrun]
    simp only [Maps.getPublished, Maps.step, Maps.setConstructor, Maps.content_put]
    by_cases hk : k' = k ∧ fullState' = fullState
    · simp [hk]
    · have hk' : ¬ (fullState' = fullState ∧ k' = k) := fun h => hk h.symm
      rw [if_neg hk, if_neg (by simpa using hk'), if_neg hk']
      rfl

/-- The event type `dialog`. -/
def dialogKey : EventTypeKey := ⟨text "dialog", by decide⟩

def testBody (line : String) : HttpBody := ⟨text "text/plain", text line⟩

/-- A constructor with one body of one flavor for every resource. -/
def testConstructor (fullState : Bool) (line : String) : Constructor :=
  fun _ _ _ _ => [⟨fullState, [testBody line]⟩]

/-- Full and partial content come and go, and the default is revealed to an observer that
reads. -/
def revealed : List Op :=
  [.setContentChangeObserver dialogKey.text true,
    .publishDefaultConstructor dialogKey (some (testConstructor true "none")) true,
    .publish (text "sip:200@example.com") dialogKey dialogKey.text [testBody "one"] true true [],
    .publish (text "sip:200@example.com") dialogKey dialogKey.text [testBody "+one"] false false
      [⟨text "sip:200@example.com", dialogKey, dialogKey.text, true, acceptAllTypes⟩],
    .unpublish (text "sip:200@example.com") dialogKey dialogKey.text
      [⟨text "sip:200@example.com", dialogKey, dialogKey.text, true, acceptAllTypes⟩]]

theorem revealed_as_maps :
    (revealed.foldl step {}).getPublished (some (text "sip:200@example.com")) dialogKey true =
      (revealed.foldl Maps.step {}).getPublished (some (text "sip:200@example.com")) dialogKey true ∧
    ((revealed.foldl step {}).getPublished (some (text "sip:200@example.com")) dialogKey true).1 =
      [testBody "none"] :=
  ⟨(published_as_maps (by decide)).1 _ _ _, by decide⟩

/-- The content of a resource goes while both constructors have something to put in its place. -/
def replaced : List Op :=
  [.setContentChangeObserver dialogKey.text true,
    .publishDefaultConstructor dialogKey (some (testConstructor true "none")) true,
    .publishDefaultConstructor dialogKey (some (testConstructor false "+none")) false,
    .publish (text "sip:200@example.com") dialogKey dialogKey.text [testBody "one"] true false [],
    .unpublish (text "sip:200@example.com") dialogKey dialogKey.text []]

/-- A default of each flavor, and the partial one is removed. -/
def removedPartial : List Op :=
  [.publishDefault dialogKey dialogKey.text [testBody "full"] true,
    .publishDefault dialogKey dialogKey.text [testBody "partial"] false,
    .unpublishDefault dialogKey dialogKey.text false]

/-- Partial content turns up as full content, the default of the wrong flavor is removed, and the
full default is returned for partial state. -/
theorem flavors_mixed :
    ((replaced.foldl step {}).getPublished (some (text "sip:200@example.com")) dialogKey true).1 =
        [testBody "+none"] ∧
      ((replaced.foldl Maps.step {}).getPublished (some (text "sip:200@example.com")) dialogKey
        true).1 = [testBody "none"] ∧
      ((removedPartial.foldl step {}).getPublished none dialogKey true).1 = [] ∧
      ((removedPartial.foldl Maps.step {}).getPublished none dialogKey true).1 = [testBody "full"] ∧
      ((step {} (.publishDefault dialogKey dialogKey.text [testBody "full"] true)).getContent
        ⟨text "sip:200@example.com", dialogKey, dialogKey.text, false, acceptAllTypes⟩).2.content =
        some (testBody "full") := by
  decide

end SipXRouter.PublishContent
