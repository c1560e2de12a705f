import SipXRouter.Utl.UtlHash

/-!
# Hash bags

`UtlHashBag` keeps objects in bucket lists of ascending hash.  A new link stands before the
links of the same hash, and a resize, which moves the links one by one, turns them round.

## Design notes

* An object is known by its address, a value of the type `O`.  Hash and equality of an object
  do not change while it is in a bag.
* An inserted link brings its address along, as `UtlLink::get` would give it.
* `find` and `contains` read the hash of their argument without a test for `NULL`, so that
  they have no call for it.
* Of the iterators only the number counts here: they keep the bag from growing.
-/

namespace SipXRouter

open List

/-- What the tables ask of a `UtlContainable`. -/
structure UtlContainable (O : Type*) where
  hash : O → UInt32
  isEqual : O → O → Bool

/-- Equal members hash equally. -/
def UtlContainable.Congruent {O : Type*} (c : UtlContainable O) : Prop :=
  ∀ a b, c.isEqual a b = true → c.hash a = c.hash b

/-- `UtlLink`, as the bag uses it. -/
structure UtlLink (O : Type*) where
  address : Nat
  data : O
  hash : UInt32
deriving DecidableEq

/-- `UtlHashBag`: the buckets, and the number of its iterators. -/
structure UtlHashBag (O : Type*) where
  table : Table (UtlLink O)
  iterators : Nat
deriving DecidableEq

namespace UtlHashBag

open UtlHash

variable {O : Type*}

theorem decide_le_self (k : UInt32) : decide (k ≤ k) = true := decide_eq_true (UInt32.le_refl k)

/-- Ascending hashes; the walk for a new link ends at the first hash that is not smaller. -/
def ascending : ChainOrder UInt32 where
  le a b := a ≤ b
  stops k e := k ≤ e
  refl := decide_le_self
  trans hab hbc := decide_eq_true (UInt32.le_trans (of_decide_eq_true hab) (of_decide_eq_true hbc))
  le_of_stops h := h
  le_of_goesOn {k e} h := decide_eq_true ((UInt32.le_total k e).resolve_left (of_decide_eq_false h))

/-- The buckets of a bag. -/
def filing : Filing (UtlLink O) UInt32 where
  key := UtlLink.hash
  order := ascending
  chain := bucketNumber
  chain_lt := bucketNumber_lt

/-- The constructor. -/
def new : UtlHashBag O := ⟨Table.blank 0 initialBucketBits, 0⟩

/-- `mIteratorList.isUnLinked()`. -/
def isUnLinked (b : UtlHashBag O) : Bool := b.iterators == 0

/-- The elements of a bag. -/
def contents (b : UtlHashBag O) : Multiset O := b.table.content.map UtlLink.data

variable (c : UtlContainable O)

/-! ## Operations -/

/-- `insert`, with the address of the link. -/
def insert (b : UtlHashBag O) (address : Nat) (insertedContainable : Option O) :
    UtlHashBag O × Option O :=
  match insertedContainable with
  | none => (b, none)
  | some object =>
    ({ b with table := insertNew filing b.isUnLinked b.table ⟨address, object, c.hash object⟩ },
      some object)

/-- `lookup`: a link of the hash whose element equals the key. -/
def lookup (b : UtlHashBag O) (key : O) : Option (UtlLink O) :=
  b.table.lookup filing (c.hash key) fun check =>
    check.hash == c.hash key && c.isEqual check.data key

/-- The search of `removeReference`. -/
def lookupReference [DecidableEq O] (b : UtlHashBag O) (object : O) : Option (UtlLink O) :=
  b.table.lookup filing (c.hash object) fun check => check.data == object

/-- What is done with a link that was found. -/
def removeLink [DecidableEq O] (b : UtlHashBag O) : Option (UtlLink O) → UtlHashBag O × Option O
  | none => (b, none)
  | some link => ({ b with table := unlink filing b.table link }, some link.data)

def remove [DecidableEq O] (b : UtlHashBag O) (object : Option O) : UtlHashBag O × Option O :=
  match object with
  | none => (b, none)
  | some object => b.removeLink (b.lookup c object)

/-- The very object is removed, not one that equals it. -/
def removeReference [DecidableEq O] (b : UtlHashBag O) (object : Option O) :
    UtlHashBag O × Option O :=
  match object with
  | none => (b, none)
  | some object => b.removeLink (b.lookupReference c object)

/-- `destroy`: the object that is deleted. -/
def destroy [DecidableEq O] (b : UtlHashBag O) (object : Option O) : UtlHashBag O × Option O :=
  b.remove c object

def removeAll (b : UtlHashBag O) : UtlHashBag O := { b with table := b.table.clear }

/-- `destroyAll`, with the objects that are deleted. -/
def destroyAll (b : UtlHashBag O) : UtlHashBag O × List O :=
  (b.removeAll, (Table.taken b.table.elements b.table.chains).map UtlLink.data)

def find (b : UtlHashBag O) (object : O) : Option O := (b.lookup c object).map UtlLink.data

/-- `findReference`: all buckets are walked. -/
def findReference [DecidableEq O] (b : UtlHashBag O) (object : Option O) : Option O :=
  object.bind fun object =>
    (b.table.chains.flatten.find? fun check => check.data == object).map UtlLink.data

def contains (b : UtlHashBag O) (object : O) : Bool := (b.lookup c object).isSome

def entries (b : UtlHashBag O) : Nat := b.table.elements

def isEmpty (b : UtlHashBag O) : Bool := b.entries == 0

/-- An iterator is attached. -/
def addIterator (b : UtlHashBag O) : UtlHashBag O := { b with iterators := b.iterators + 1 }

/-- An iterator is destroyed: the bag may have been waiting to grow. -/
def removeIterator (b : UtlHashBag O) : UtlHashBag O :=
  { table := resizeIfNeededAndSafe filing (b.iterators - 1 == 0) b.table
    iterators := b.iterators - 1 }

/-- The bag after `resize`. -/
def resized (b : UtlHashBag O) : UtlHashBag O := { b with table := resize filing b.table }

/-! ## Runs -/

/-- The operations on a bag. -/
inductive Op (O : Type*) where
  | insert (address : Nat) (object : Option O)
  | remove (object : Option O)
  | removeReference (object : Option O)
  | destroy (object : Option O)
  | find (object : O)
  | findReference (object : Option O)
  | contains (object : O)
  | removeAll
  | destroyAll
  | entries
  | addIterator
  | removeIterator

/-- What an operation returns. -/
inductive Result (O : Type*) where
  | nothing
  | object (object : Option O)
  | truth (value : Bool)
  | count (value : Nat)
  | deleted (objects : List O)
deriving DecidableEq

/-- An operation with its result. -/
def step [DecidableEq O] (b : UtlHashBag O) : Op O → UtlHashBag O × Result O
  | .insert address object => (b.insert c address object).map id .object
  | .remove object => (b.remove c object).map id .object
  | .removeReference object => (b.removeReference c object).map id .object
  | .destroy object => (b.destroy c object).map id .object
  | .find object => (b, .object (b.find c object))
  | .findReference object => (b, .object (b.findReference object))
  | .contains object => (b, .truth (b.contains c object))
  | .removeAll => (b.removeAll, .nothing)
  | .destroyAll => b.destroyAll.map id .deleted
  | .entries => (b, .count b.entries)
  | .addIterator => (b.addIterator, .nothing)
  | .removeIterator => (b.removeIterator, .nothing)

def run [DecidableEq O] (b : UtlHashBag O) : List (Op O) → UtlHashBag O × List (Result O)
  | [] => (b, [])
  | op :: ops => (run (b.step c op).1 ops).map id ((b.step c op).2 :: ·)

/-! ## Finite multisets -/

/-- An element that equals the key is given. -/
def Finds (s : Multiset O) (key : O) (found : Option O) : Prop :=
  (∀ a ∈ found, a ∈ s ∧ c.isEqual a key = true) ∧
    (found = none → ∀ a ∈ s, c.isEqual a key = false)

/-- The multiset without the element that was given. -/
def without [DecidableEq O] (s : Multiset O) : Option O → Multiset O
  | none => s
  | some a => s.erase a

/-- What an operation may give and leave, of a finite multiset. -/
def Behaves [DecidableEq O] (s : Multiset O) : Op O → Result O → Multiset O → Prop
  | .insert _ object, r, s' => r = .object object ∧ s' = object.toList + s
  | .remove none, r, s' => r = .object none ∧ s' = s
  | .remove (some key), r, s' =>
    ∃ found, Finds c s key found ∧ r = .object found ∧ s' = without s found
  | .destroy none, r, s' => r = .object none ∧ s' = s
  | .destroy (some key), r, s' =>
    ∃ found, Finds c s key found ∧ r = .object found ∧ s' = without s found
  | .removeReference object, r, s' =>
    r = .object (object.filter (· ∈ s)) ∧ s' = without s (object.filter (· ∈ s))
  | .find key, r, s' => ∃ found, Finds c s key found ∧ r = .object found ∧ s' = s
  | .findReference object, r, s' => r = .object (object.filter (· ∈ s)) ∧ s' = s
  | .contains key, r, s' =>
    ∃ found, r = .truth found ∧ (found = true ↔ ∃ a ∈ s, c.isEqual a key = true) ∧ s' = s
  | .removeAll, r, s' => r = .nothing ∧ s' = 0
  | .destroyAll, r, s' => ∃ objects, r = .deleted objects ∧ (objects : Multiset O) = s ∧ s' = 0
  | .entries, r, s' => r = .count s.card ∧ s' = s
  | .addIterator, r, s' => r = .nothing ∧ s' = s
  | .removeIterator, r, s' => r = .nothing ∧ s' = s

/-- What a run may give and leave. -/
def BehavesAll [DecidableEq O] (s : Multiset O) : List (Op O) → List (Result O) → Multiset O → Prop
  | [], results, s' => results = [] ∧ s' = s
  | op :: ops, results, s' =>
    ∃ r s₁ rest, results = r :: rest ∧ Behaves c s op r s₁ ∧ BehavesAll s₁ ops rest s'

/-! ## The bag is a multiset -/

/-- The invariant: a sound table whose links have the hashes of their elements. -/
structure Sound (b : UtlHashBag O) : Prop where
  table : UtlHash.Sound filing b.table
  hashed : ∀ link ∈ b.table.content, link.hash = c.hash link.data

variable {c} {b : UtlHashBag O}

theorem sound_new : Sound c (new : UtlHashBag O) where
  table := sound_blank initialBucketBits
  hashed link hlink := by
    rw [new, Table.content_blank] at hlink
    exact absurd hlink (Multiset.notMem_zero link)

theorem Sound.card_contents (h : Sound c b) : b.contents.card = b.entries := by
  rw [contents, Multiset.card_map]
  exact h.table.counted.symm

theorem mem_contents_of_link {link : UtlLink O} (h : link ∈ b.table.content) :
    link.data ∈ b.contents := Multiset.mem_map_of_mem _ h

/-! ### Searches -/

theorem hash_of_lookup_test {key : O} (link : UtlLink O)
    (h : (link.hash == c.hash key && c.isEqual link.data key) = true) :
    filing.key link = c.hash key := by
  rw [Bool.and_eq_true, beq_iff_eq] at h
  exact h.1

theorem Sound.mem_of_lookup (h : Sound c b) {key : O} {link : UtlLink O}
    (hlookup : b.lookup c key = some link) :
    link ∈ b.table.content ∧ c.isEqual link.data key = true := by
  obtain ⟨hmem, htest⟩ :=
    h.table.filed.lookup_eq_some (fun link _ => hash_of_lookup_test link) hlookup
  rw [Bool.and_eq_true] at htest
  exact ⟨hmem, htest.2⟩

theorem Sound.not_isEqual_of_lookup (h : Sound c b) (hc : c.Congruent) {key : O}
    (hlookup : b.lookup c key = none) : ∀ a ∈ b.contents, c.isEqual a key = false := by
  intro a ha
  obtain ⟨link, hlink, rfl⟩ := Multiset.mem_map.mp ha
  have htest := h.table.filed.lookup_eq_none (fun link _ => hash_of_lookup_test link) hlookup
    link hlink
  rw [Bool.and_eq_true, beq_iff_eq, h.hashed link hlink, not_and, Bool.not_eq_true] at htest
  by_contra hequal
  rw [Bool.not_eq_false] at hequal
  rw [htest (hc _ _ hequal)] at hequal
  exact Bool.false_ne_true hequal

theorem Sound.finds_find (h : Sound c b) (hc : c.Congruent) (key : O) :
    Finds c b.contents key (b.find c key) := by
  rw [find]
  cases hlookup : b.lookup c key with
  | none =>
    refine ⟨fun a ha => absurd ha (by simp), fun _ => h.not_isEqual_of_lookup hc hlookup⟩
  | some link =>
    obtain ⟨hmem, hequal⟩ := h.mem_of_lookup hlookup
    refine ⟨fun a ha => ?_, fun hnone => absurd hnone (by simp)⟩
    obtain rfl := Option.some_inj.mp ha
    exact ⟨mem_contents_of_link hmem, hequal⟩

theorem Sound.contains_iff (h : Sound c b) (hc : c.Congruent) (key : O) :
    b.contains c key = true ↔ ∃ a ∈ b.contents, c.isEqual a key = true := by
  obtain ⟨hsome, hnone⟩ := h.finds_find hc key
  rw [contains, ← Option.isSome_map (f := UtlLink.data)]
  rw [find] at hsome hnone
  cases hfind : (b.lookup c key).map UtlLink.data with
  | none =>
    refine ⟨fun hfalse => absurd hfalse (by simp), fun ⟨a, ha, hequal⟩ => ?_⟩
    rw [hnone hfind a ha] at hequal
    exact absurd hequal Bool.false_ne_true
  | some a => exact ⟨fun _ => ⟨a, hsome a hfind⟩, fun _ => rfl⟩

theorem Sound.lookupReference_eq [DecidableEq O] (h : Sound c b) (object : O) :
    (b.lookupReference c object).map UtlLink.data = (some object).filter (· ∈ b.contents) := by
  have hkey : ∀ link ∈ b.table.content, (link.data == object) = true →
      filing.key link = c.hash object := by
    intro link hlink hdata
    rw [← beq_iff_eq.mp hdata]
    exact h.hashed link hlink
  cases hlookup : b.lookupReference c object with
  | none =>
    have hnone := h.table.filed.lookup_eq_none hkey hlookup
    have hmem : object ∉ b.contents := by
      intro hobject
      obtain ⟨link, hlink, rfl⟩ := Multiset.mem_map.mp hobject
      exact hnone link hlink BEq.rfl
    simp [Option.filter, hmem]
  | some link =>
    obtain ⟨hlink, hdata⟩ := h.table.filed.lookup_eq_some hkey hlookup
    obtain rfl := beq_iff_eq.mp hdata
    simp [Option.filter, mem_contents_of_link hlink]

theorem findReference_eq [DecidableEq O] (object : Option O) :
    b.findReference object = object.filter (· ∈ b.contents) := by
  cases object with
  | none => rfl
  | some object =>
    rw [findReference, Option.bind_some]
    cases hfind : b.table.chains.flatten.find? fun check => check.data == object with
    | none =>
      have hmem : object ∉ b.contents := by
        intro hobject
        obtain ⟨link, hlink, rfl⟩ := Multiset.mem_map.mp hobject
        exact find?_eq_none.mp hfind link hlink BEq.rfl
      simp [Option.filter, hmem]
    | some link =>
      have hdata : (link.data == object) = true :=
        find?_some (p := fun check : UtlLink O => check.data == object) hfind
      have hlink : link ∈ b.table.content := mem_of_find?_eq_some hfind
      obtain rfl := beq_iff_eq.mp hdata
      simp [Option.filter, mem_contents_of_link hlink]

/-! ### Changes -/

theorem Sound.insert (h : Sound c b) (address : Nat) (object : Option O) :
    Sound c (b.insert c address object).1 ∧
      (b.insert c address object).1.contents = object.toList + b.contents := by
  cases object with
  | none => exact ⟨h, (zero_add _).symm⟩
  | some object =>
    have hcontent := h.table.content_insertNew b.isUnLinked ⟨address, object, c.hash object⟩
    refine ⟨⟨h.table.insertNew _ _, fun link hlink => ?_⟩, ?_⟩
    · rw [UtlHashBag.insert, hcontent] at hlink
      rcases Multiset.mem_cons.mp hlink with rfl | hlink
      · rfl
      · exact h.hashed link hlink
    · rw [contents, UtlHashBag.insert, hcontent, Multiset.map_cons]
      rfl

theorem Sound.removeLink [DecidableEq O] (h : Sound c b) {found : Option (UtlLink O)}
    (hfound : ∀ link ∈ found, link ∈ b.table.content) : Sound c (b.removeLink found).1 ∧
      (b.removeLink found).1.contents = without b.contents (found.map UtlLink.data) := by
  cases found with
  | none => exact ⟨h, rfl⟩
  | some link =>
    have hlink := hfound link rfl
    have hcontent := h.table.content_unlink hlink
    refine ⟨⟨h.table.unlink hlink, fun other hother => h.hashed other ?_⟩, ?_⟩
    · rw [UtlHashBag.removeLink, hcontent] at hother
      exact Multiset.mem_of_mem_erase hother
    · rw [contents, UtlHashBag.removeLink, hcontent, Multiset.map_erase_of_mem _ _ hlink]
      rfl

theorem removeLink_snd [DecidableEq O] (found : Option (UtlLink O)) :
    (b.removeLink found).2 = found.map UtlLink.data := by
  cases found with
  | none => rfl
  | some link => rfl

theorem Sound.remove [DecidableEq O] (h : Sound c b) (hc : c.Congruent) (key : O) :
    Sound c (b.remove c (some key)).1 ∧ Finds c b.contents key (b.remove c (some key)).2 ∧
      (b.remove c (some key)).1.contents = without b.contents (b.remove c (some key)).2 := by
  obtain ⟨hsound, hcontents⟩ := h.removeLink fun link hlink => (h.mem_of_lookup hlink).1
  have hresult : (b.remove c (some key)).2 = b.find c key := removeLink_snd _
  rw [hresult]
  exact ⟨hsound, h.finds_find hc key, hcontents⟩

theorem Sound.removeReference [DecidableEq O] (h : Sound c b) (object : Option O) :
    Sound c (b.removeReference c object).1 ∧
      (b.removeReference c object).2 = object.filter (· ∈ b.contents) ∧
      (b.removeReference c object).1.contents =
        without b.contents (object.filter (· ∈ b.contents)) := by
  cases object with
  | none => exact ⟨h, rfl, rfl⟩
  | some object =>
    have hkey : ∀ link ∈ b.table.content, (link.data == object) = true →
        filing.key link = c.hash object := by
      intro link hlink hdata
      rw [← beq_iff_eq.mp hdata]
      exact h.hashed link hlink
    have hfound : ∀ link ∈ b.lookupReference c object, link ∈ b.table.content :=
      fun link hlink => (h.table.filed.lookup_eq_some hkey hlink).1
    obtain ⟨hsound, hcontents⟩ := h.removeLink hfound
    rw [← h.lookupReference_eq]
    exact ⟨hsound, removeLink_snd _, hcontents⟩

theorem Sound.removeAll (h : Sound c b) : Sound c b.removeAll ∧ b.removeAll.contents = 0 := by
  have hcontent : b.removeAll.table.content = 0 := Table.content_clear h.table.counted
  refine ⟨⟨h.table.clear, fun link hlink => ?_⟩, ?_⟩
  · rw [hcontent] at hlink
    exact absurd hlink (Multiset.notMem_zero link)
  · rw [contents, hcontent]
    rfl

theorem Sound.deleted (h : Sound c b) : ((b.destroyAll).2 : Multiset O) = b.contents := by
  rw [destroyAll, Table.taken_eq h.table.counted]
  rfl

theorem Sound.removeIterator (h : Sound c b) :
    Sound c b.removeIterator ∧ b.removeIterator.contents = b.contents := by
  have hcontent : b.removeIterator.table.content = b.table.content :=
    content_resizeIfNeededAndSafe h.table.counted _
  refine ⟨⟨h.table.resizeIfNeededAndSafe _, fun link hlink => ?_⟩, ?_⟩
  · rw [hcontent] at hlink
    exact h.hashed link hlink
  · rw [contents, hcontent]
    rfl

theorem Sound.addIterator (h : Sound c b) : Sound c b.addIterator := ⟨h.table, h.hashed⟩

/-! ### Steps and runs -/

/-- Every operation keeps the bag sound and does what a multiset does. -/
theorem Sound.step [DecidableEq O] (h : Sound c b) (hc : c.Congruent) (op : Op O) :
    Sound c (b.step c op).1 ∧ Behaves c b.contents op (b.step c op).2 (b.step c op).1.contents := by
  cases op with
  | insert address object =>
    obtain ⟨hsound, hcontents⟩ := h.insert address object
    refine ⟨hsound, ?_, hcontents⟩
    cases object with
    | none => rfl
    | some object => rfl
  | remove object =>
    cases object with
    | none => exact ⟨h, rfl, rfl⟩
    | some key =>
      obtain ⟨hsound, hfinds, hcontents⟩ := h.remove hc key
      exact ⟨hsound, _, hfinds, rfl, hcontents⟩
  | destroy object =>
    cases object with
    | none => exact ⟨h, rfl, rfl⟩
    | some key =>
      obtain ⟨hsound, hfinds, hcontents⟩ := h.remove hc key
      exact ⟨hsound, _, hfinds, rfl, hcontents⟩
  | removeReference object =>
    obtain ⟨hsound, hresult, hcontents⟩ := h.removeReference object
    exact ⟨hsound, congrArg Result.object hresult, hcontents⟩
  | find key => exact ⟨h, _, h.finds_find hc key, rfl, rfl⟩
  | findReference object => exact ⟨h, congrArg Result.object (findReference_eq object), rfl⟩
  | contains key => exact ⟨h, _, rfl, h.contains_iff hc key, rfl⟩
  | removeAll =>
    obtain ⟨hsound, hcontents⟩ := h.removeAll
    exact ⟨hsound, rfl, hcontents⟩
  | destroyAll =>
    obtain ⟨hsound, hcontents⟩ := h.removeAll
    exact ⟨hsound, _, rfl, h.deleted, hcontents⟩
  | entries => exact ⟨h, congrArg Result.count h.card_contents.symm, rfl⟩
  | addIterator => exact ⟨h.addIterator, rfl, rfl⟩
  | removeIterator =>
    obtain ⟨hsound, hcontents⟩ := h.removeIterator
    exact ⟨hsound, rfl, hcontents⟩

theorem Sound.run [DecidableEq O] (h : Sound c b) (hc : c.Congruent) (ops : List (Op O)) :
    Sound c (b.run c ops).1 ∧
      BehavesAll c b.contents ops (b.run c ops).2 (b.run c ops).1.contents := by
  induction ops generalizing b with
  | nil => exact ⟨h, rfl, rfl⟩
  | cons op ops ih =>
    obtain ⟨hstep, hbehaves⟩ := h.step hc op
    obtain ⟨hsound, hall⟩ := ih hstep
    exact ⟨hsound, _, _, _, rfl, hbehaves, hall⟩

/-! ### Resizes -/

theorem Sound.resized (h : Sound c b) : Sound c b.resized ∧ b.resized.contents = b.contents := by
  have hcontent : b.resized.table.content = b.table.content := Table.content_refile h.table.counted _
  refine ⟨⟨⟨Table.Filed.refile h.table.counted _, ?_⟩, fun link hlink => ?_⟩, ?_⟩
  · rw [Table.Counted, hcontent]
    exact (Table.refile_elements _ h.table.counted _).trans h.table.counted
  · rw [hcontent] at hlink
    exact h.hashed link hlink
  · rw [contents, hcontent]
    rfl

theorem Finds.unique {s : Multiset O} {key : O} {found found' : Option O}
    (hkey : ∀ a ∈ s, ∀ a' ∈ s, c.isEqual a key = true → c.isEqual a' key = true → a = a')
    (h : Finds c s key found) (h' : Finds c s key found') : found = found' := by
  cases found with
  | none =>
    cases found' with
    | none => rfl
    | some a' =>
      obtain ⟨ha', hequal⟩ := h'.1 a' rfl
      rw [h.2 rfl a' ha'] at hequal
      exact absurd hequal Bool.false_ne_true
  | some a =>
    obtain ⟨ha, hequal⟩ := h.1 a rfl
    cases found' with
    | none =>
      rw [h'.2 rfl a ha] at hequal
      exact absurd hequal Bool.false_ne_true
    | some a' =>
      obtain ⟨ha', hequal'⟩ := h'.1 a' rfl
      rw [hkey a ha a' ha' hequal hequal']

/-- **The bag is a finite multiset**: over any run every operation gives and leaves what it may,
the count is that of the elements, the buckets ascend, and a resize changes none of the
contents, nor what is found where only one element is equal. -/
theorem run_refines [DecidableEq O] (hc : c.Congruent) (ops : List (Op O)) :
    let b := (run c new ops).1
    BehavesAll c 0 ops (run c new ops).2 b.contents ∧
      b.entries = b.contents.card ∧
      (∀ bucket ∈ b.table.chains, bucket.Pairwise fun link link' => link.hash ≤ link'.hash) ∧
      b.resized.contents = b.contents ∧ b.resized.entries = b.entries ∧
      (∀ key, b.resized.contains c key = b.contains c key) ∧
      (∀ object, b.resized.findReference object = b.findReference object) ∧
      ∀ key, (∀ a ∈ b.contents, ∀ a' ∈ b.contents,
          c.isEqual a key = true → c.isEqual a' key = true → a = a') →
        b.resized.find c key = b.find c key := by
  intro b
  obtain ⟨hsound, hall⟩ := sound_new.run hc ops
  obtain ⟨hresized, hcontents⟩ := hsound.resized
  refine ⟨?_, hsound.card_contents.symm, fun bucket hbucket => ?_, hcontents, ?_, ?_, ?_, ?_⟩
  · rw [contents, new, Table.content_blank] at hall
    exact hall
  · exact (hsound.table.filed.sorted bucket hbucket).imp fun h => of_decide_eq_true h
  · rw [← hresized.card_contents, hcontents, hsound.card_contents]
  · intro key
    rw [Bool.eq_iff_iff, hresized.contains_iff hc, hsound.contains_iff hc, hcontents]
  · intro object
    rw [findReference_eq, findReference_eq, hcontents]
  · intro key hkey
    refine Finds.unique (c := c) (s := b.contents) hkey ?_ (hsound.finds_find hc key)
    rw [← hcontents]
    exact hresized.finds_find hc key

/-! ### Room -/

theorem roomy_removeLink [DecidableEq O] (h : Roomy b.table b.isUnLinked)
    (found : Option (UtlLink O)) :
    Roomy (b.removeLink found).1.table (b.removeLink found).1.isUnLinked := by
  cases found with
  | none => exact h
  | some link => exact h.mono (Nat.sub_le _ _) rfl

/-- One operation keeps the room. -/
theorem Sound.roomy_step [DecidableEq O] (h : Sound c b)
    (hroomy : Roomy b.table b.isUnLinked) (op : Op O) :
    Roomy (b.step c op).1.table (b.step c op).1.isUnLinked := by
  cases op with
  | insert address object =>
    cases object with
    | none => exact hroomy
    | some object => exact h.table.roomy_insertNew b.isUnLinked _
  | remove object =>
    cases object with
    | none => exact hroomy
    | some key => exact roomy_removeLink hroomy _
  | removeReference object =>
    cases object with
    | none => exact hroomy
    | some key => exact roomy_removeLink hroomy _
  | destroy object =>
    cases object with
    | none => exact hroomy
    | some key => exact roomy_removeLink hroomy _
  | find | findReference | contains | entries => exact hroomy
  | removeAll | destroyAll => exact hroomy.mono (Nat.zero_le _) rfl
  | addIterator =>
    intro hnone
    exact absurd (beq_iff_eq.mp hnone) (Nat.succ_ne_zero b.iterators)
  | removeIterator => exact roomy_resizeIfNeededAndSafe h.table.counted _

/-- **A bag without iterators has room**, whatever has been done with it before. -/
theorem run_roomy [DecidableEq O] (hc : c.Congruent) (ops : List (Op O)) :
    Roomy (run c new ops).1.table (run c new ops).1.isUnLinked := by
  have hrun : ∀ (ops : List (Op O)) (b : UtlHashBag O), Sound c b →
      Roomy b.table b.isUnLinked → Roomy (run c b ops).1.table (run c b ops).1.isUnLinked := by
    intro ops
    induction ops with
    | nil => exact fun _ _ h => h
    | cons op ops ih =>
      intro b hb hroomy
      exact ih _ (hb.step hc op).1 (hb.roomy_step hroomy op)
  exact hrun ops new sound_new (roomy_blank _)

/-! ### A bag that grows -/

/-- Numbers that are equal, and hash equally, modulo 50. -/
def modulo : UtlContainable Nat where
  hash n := UInt32.ofNat (n % 50)
  isEqual m n := m % 50 == n % 50

theorem run_refines_modulo :
    modulo.Congruent ∧
      let ops : List (Op Nat) :=
        [.insert 0 (some 3), .insert 1 (some 53), .remove (some 103), .removeReference (some 3)]
      let b := (run modulo new ops).1
      BehavesAll modulo 0 ops (run modulo new ops).2 b.contents := by
  have hc : modulo.Congruent := by
    intro m n hmn
    exact congrArg UInt32.ofNat (beq_iff_eq.mp hmn)
  exact ⟨hc, (run_refines hc _).1⟩

theorem run_roomy_iterator :
    let ops : List (Op Nat) := .addIterator ::
      ((range 200).map fun n => .insert n (some n)) ++ [.removeIterator]
    Roomy (run modulo new ops).1.table (run modulo new ops).1.isUnLinked :=
  run_roomy (fun _ _ hmn => congrArg UInt32.ofNat (beq_iff_eq.mp hmn)) _

/-- The bag of 0 and 50, which are equal, and the numbers from 1 to 45, in this order. -/
def almostCrowded : UtlHashBag Nat :=
  (run modulo new ((0 :: 50 :: range' 1 45).map fun n => .insert n (some n))).1

/-- One more element, and the bag grows: of the two elements that are equal the other one is
found. -/
theorem find_almostCrowded :
    almostCrowded.find modulo 0 = some 50 ∧ almostCrowded.table.bits = 4 ∧
      (almostCrowded.insert modulo 46 (some 46)).1.find modulo 0 = some 0 ∧
      (almostCrowded.insert modulo 46 (some 46)).1.table.bits = 5 ∧
      almostCrowded.resized.find modulo 0 = some 0 := by
  decide +kernel

end UtlHashBag

end SipXRouter
