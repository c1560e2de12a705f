import SipXRouter.Utl.UtlHashBag

/-!
# Hash maps

`UtlHashMap` keeps pairs of a key and a value in bucket lists of descending hash.  The value
`NULL` is kept as the object `INTERNAL_NULL` and turned back where a value is read.

`removeKeyAndValue` turns it back as well, and then reads the value of the pair once more.

## Design notes

* The caller's pointers are `some` address or `none` for `NULL`; of the addresses that come
  back one may be that of `INTERNAL_NULL`.
* `find`, `findValue` and `contains` read the hash of their argument without a test for
  `NULL`, so that they have no call for it.
-/

namespace SipXRouter

/-- Equality is an equivalence, and equal members hash equally. -/
structure UtlContainable.Lawful {O : Type*} (c : UtlContainable O) : Prop where
  refl : ∀ a, c.isEqual a a = true
  symm : ∀ {a b}, c.isEqual a b = true → c.isEqual b a = true
  trans : ∀ {a b d}, c.isEqual a b = true → c.isEqual b d = true → c.isEqual a d = true
  congruent : c.Congruent

/-- What a pair has for its value: an object of the caller, or `INTERNAL_NULL`. -/
inductive UtlHashMap.Value (V : Type*) where
  | object (value : V)
  | internalNull
deriving DecidableEq

/-- A pair in a bucket, with the address it was allocated at. -/
structure UtlPair (K V : Type*) where
  address : Nat
  data : K
  hash : UInt32
  value : UtlHashMap.Value V
deriving DecidableEq

/-- `UtlHashMap`: the buckets, and the number of its iterators. -/
structure UtlHashMap (K V : Type*) where
  table : Table (UtlPair K V)
  iterators : Nat
deriving DecidableEq

namespace UtlHashMap

open UtlHash

variable {K V : Type*}

/-- Descending hashes; the walk for a new pair ends at the first hash that is smaller. -/
def descending : ChainOrder UInt32 where
  le a b := b ≤ a
  stops k e := e < k
  refl := UtlHashBag.decide_le_self
  trans hab hbc := decide_eq_true (UInt32.le_trans (of_decide_eq_true hbc) (of_decide_eq_true hab))
  le_of_stops h := decide_eq_true (UInt32.le_of_lt (of_decide_eq_true h))
  le_of_goesOn h := decide_eq_true (UInt32.not_lt.mp (of_decide_eq_false h))

/-- The buckets of a map. -/
def filing : Filing (UtlPair K V) UInt32 where
  key := UtlPair.hash
  order := descending
  chain := bucketNumber
  chain_lt := bucketNumber_lt

/-- The constructor. -/
def new : UtlHashMap K V := ⟨Table.blank 0 initialBucketBits, 0⟩

/-- `mIteratorList.isUnLinked()`. -/
def isUnLinked (m : UtlHashMap K V) : Bool := m.iterators == 0

/-- The value that is kept for the caller's. -/
def Value.ofCaller : Option V → Value V
  | none => .internalNull
  | some value => .object value

/-- The caller's value of the one that is kept. -/
def Value.toCaller : Value V → Option V
  | .object value => some value
  | .internalNull => none

@[simp] theorem Value.toCaller_ofCaller (value : Option V) : (Value.ofCaller value).toCaller = value := by
  cases value with
  | none => rfl
  | some value => rfl

/-- A value is given back as it was stored if and only if it is not `NULL`. -/
theorem value_eq_toCaller_iff (value : Value V) :
    some value = value.toCaller.map Value.object ↔ value ≠ .internalNull := by
  cases value with
  | object value => exact iff_of_true rfl (by simp)
  | internalNull => exact iff_of_false (by simp [Value.toCaller]) (by simp)

def entry (pair : UtlPair K V) : K × Option V := (pair.data, pair.value.toCaller)

/-- The entries of a map. -/
def contents (m : UtlHashMap K V) : Multiset (K × Option V) := m.table.content.map entry

/-! ## Operations -/

section Operations

variable (c : UtlContainable K)

/-- `lookup`: a pair of the hash whose key is equal. -/
def lookup (m : UtlHashMap K V) (key : K) : Option (UtlPair K V) :=
  m.table.lookup filing (c.hash key) fun check =>
    check.hash == c.hash key && c.isEqual check.data key

/-- `insertKeyAndValue`, with the address of the pair. -/
def insertKeyAndValue (m : UtlHashMap K V) (address : Nat) (key : Option K) (value : Option V) :
    UtlHashMap K V × Option K :=
  match key with
  | none => (m, none)
  | some key =>
    match m.lookup c key with
    | none =>
      ({ m with
          table := insertNew filing m.isUnLinked m.table
            ⟨address, key, c.hash key, Value.ofCaller value⟩ },
        some key)
    | some _ => (m, none)

def insert (m : UtlHashMap K V) (address : Nat) (obj : Option K) : UtlHashMap K V × Option K :=
  m.insertKeyAndValue c address obj none

/-- `removeKeyAndValue`: the key that is removed, and what `value` is set to. -/
def removeKeyAndValue [DecidableEq K] [DecidableEq V] (m : UtlHashMap K V) (key : Option K) :
    UtlHashMap K V × Option K × Option (Value V) :=
  match key with
  | none => (m, none, none)
  | some key =>
    match m.lookup c key with
    | none => (m, none, none)
    | some pair =>
      -- the value has been turned into `NULL` by here; it is set again from the pair
      ({ m with table := unlink filing m.table pair }, some pair.data, some pair.value)

/-- `remove`, and `removeReference`. -/
def remove [DecidableEq K] [DecidableEq V] (m : UtlHashMap K V) (key : Option K) :
    UtlHashMap K V × Option K :=
  ((m.removeKeyAndValue c key).1, (m.removeKeyAndValue c key).2.1)

/-- `destroy`: the key and the value that are deleted. -/
def destroy [DecidableEq K] [DecidableEq V] (m : UtlHashMap K V) (key : Option K) :
    UtlHashMap K V × Option (K × Option V) :=
  let removed := m.removeKeyAndValue c key
  (removed.1, removed.2.1.map fun removedKey => (removedKey, removed.2.2.bind Value.toCaller))

def removeAll (m : UtlHashMap K V) : UtlHashMap K V := { m with table := m.table.clear }

/-- `destroyAll`, with the keys and values that are deleted. -/
def destroyAll (m : UtlHashMap K V) : UtlHashMap K V × List (K × Option V) :=
  (m.removeAll, (Table.taken m.table.elements m.table.chains).map entry)

def find (m : UtlHashMap K V) (key : K) : Option K := (m.lookup c key).map UtlPair.data

/-- The value under a key; a value that was left out is none. -/
def findValue (m : UtlHashMap K V) (key : K) : Option V :=
  (m.lookup c key).bind fun foundPair => foundPair.value.toCaller

def contains (m : UtlHashMap K V) (key : K) : Bool := (m.find c key).isSome

def entries (m : UtlHashMap K V) : Nat := m.table.elements

/-- An iterator is attached. -/
def addIterator (m : UtlHashMap K V) : UtlHashMap K V := { m with iterators := m.iterators + 1 }

/-- An iterator is destroyed: the map may have been waiting to grow. -/
def removeIterator (m : UtlHashMap K V) : UtlHashMap K V :=
  { table := resizeIfNeededAndSafe filing (m.iterators - 1 == 0) m.table
    iterators := m.iterators - 1 }

/-- The map after `resize`. -/
def resized (m : UtlHashMap K V) : UtlHashMap K V := { m with table := resize filing m.table }

/-! ## Runs -/

/-- The operations on a map. -/
inductive Op (K V : Type*) where
  | insert (address : Nat) (obj : Option K)
  | insertKeyAndValue (address : Nat) (key : Option K) (value : Option V)
  | remove (key : Option K)
  | removeKeyAndValue (key : Option K)
  | destroy (key : Option K)
  | find (key : K)
  | findValue (key : K)
  | contains (key : K)
  | removeAll
  | destroyAll
  | entries
  | addIterator
  | removeIterator

/-- What an operation returns. -/
inductive Result (K V : Type*) where
  | nothing
  | key (key : Option K)
  | value (value : Option V)
  | keyAndValue (key : Option K) (value : Option (Value V))
  | destroyed (entry : Option (K × Option V))
  | truth (value : Bool)
  | count (value : Nat)
  | deleted (entries : List (K × Option V))
deriving DecidableEq

variable [DecidableEq K] [DecidableEq V]

def step (m : UtlHashMap K V) : Op K V → UtlHashMap K V × Result K V
  | .insert address obj => (m.insert c address obj).map id .key
  | .insertKeyAndValue address key value => (m.insertKeyAndValue c address key value).map id .key
  | .remove key => (m.remove c key).map id .key
  | .removeKeyAndValue key =>
    (m.removeKeyAndValue c key).map id fun removed => .keyAndValue removed.1 removed.2
  | .destroy key => (m.destroy c key).map id .destroyed
  | .find key => (m, .key (m.find c key))
  | .findValue key => (m, .value (m.findValue c key))
  | .contains key => (m, .truth (m.contains c key))
  | .removeAll => (m.removeAll, .nothing)
  | .destroyAll => m.destroyAll.map id .deleted
  | .entries => (m, .count m.entries)
  | .addIterator => (m.addIterator, .nothing)
  | .removeIterator => (m.removeIterator, .nothing)

def run (m : UtlHashMap K V) : List (Op K V) → UtlHashMap K V × List (Result K V)
  | [] => (m, [])
  | op :: ops => (run (m.step c op).1 ops).map id ((m.step c op).2 :: ·)

end Operations

/-! ## Finite partial functions -/

/-- A partial function on the classes of equal keys: the key and the value of a class. -/
abbrev Classes (K V : Type*) := K → Option (K × Option V)

section Classes

variable (c : UtlContainable K)

/-- The class of a key gets an entry. -/
def put (F : Classes K V) (k : K) (v : Option V) : Classes K V :=
  fun k' => if c.isEqual k k' then some (k, v) else F k'

/-- The class of a key loses its entry. -/
def drop (F : Classes K V) (k : K) : Classes K V := fun k' => if c.isEqual k k' then none else F k'

/-- An entry for a class that has none. -/
def store (F : Classes K V) (k : K) (v : Option V) : Classes K V :=
  if (F k).isNone then put c F k v else F

/-- The function after an operation. -/
def next (F : Classes K V) : Op K V → Classes K V
  | .insert _ (some k) => store c F k none
  | .insertKeyAndValue _ (some k) v => store c F k v
  | .remove (some k) => drop c F k
  | .removeKeyAndValue (some k) => drop c F k
  | .destroy (some k) => drop c F k
  | .removeAll => fun _ => none
  | .destroyAll => fun _ => none
  | _ => F

/-- Every class has one entry here, or none. -/
def Lists (F : Classes K V) (s : Multiset (K × Option V)) : Prop :=
  ∀ k, (s.filter fun e => c.isEqual e.1 k = true) = ((F k).toList : Multiset (K × Option V))

/-- What an operation gives. -/
def Gives (F : Classes K V) : Op K V → Result K V → Prop
  | .insert _ key, r => r = .key (key.filter fun k => (F k).isNone)
  | .insertKeyAndValue _ key _, r => r = .key (key.filter fun k => (F k).isNone)
  | .remove key, r => r = .key ((key.bind F).map Prod.fst)
  | .removeKeyAndValue key, r =>
    r = .keyAndValue ((key.bind F).map Prod.fst) (((key.bind F).bind Prod.snd).map .object)
  | .destroy key, r => r = .destroyed (key.bind F)
  | .find k, r => r = .key ((F k).map Prod.fst)
  | .findValue k, r => r = .value ((F k).bind Prod.snd)
  | .contains k, r => r = .truth (F k).isSome
  | .destroyAll, r => ∃ entries, r = .deleted entries ∧ Lists c F (entries : Multiset (K × Option V))
  | .entries, r => ∃ s, r = .count s.card ∧ Lists c F s
  | _, r => r = .nothing

/-- What a run gives. -/
def GivesAll (F : Classes K V) : List (Op K V) → List (Result K V) → Prop
  | [], results => results = []
  | op :: ops, results =>
    ∃ r rest, results = r :: rest ∧ Gives c F op r ∧ GivesAll (next c F op) ops rest

/-- The pair that `removeKeyAndValue` finds has a value other than `NULL`. -/
def KeepsNull (m : UtlHashMap K V) : Op K V → Prop
  | .removeKeyAndValue (some key) => ∀ pair ∈ m.lookup c key, pair.value ≠ .internalNull
  | _ => True

/-- `removeKeyAndValue` finds no value `NULL` in a run. -/
def KeepsNullAll [DecidableEq K] [DecidableEq V] (m : UtlHashMap K V) : List (Op K V) → Prop
  | [] => True
  | op :: ops => KeepsNull c m op ∧ KeepsNullAll (m.step c op).1 ops

variable {c} {F : Classes K V} {s : Multiset (K × Option V)}

theorem filter_eq_of_isEqual (hc : c.Lawful) {k k' : K} (hk : c.isEqual k k' = true) :
    (s.filter fun e => c.isEqual e.1 k' = true) = s.filter fun e => c.isEqual e.1 k = true :=
  Multiset.filter_congr fun _ _ => ⟨fun h => hc.trans h (hc.symm hk), fun h => hc.trans h hk⟩

theorem Lists.eq_some_of_mem (h : Lists c F s) {e : K × Option V} (he : e ∈ s) {k : K}
    (hk : c.isEqual e.1 k = true) : F k = some e := by
  have hmem : e ∈ s.filter fun e => c.isEqual e.1 k = true := Multiset.mem_filter.mpr ⟨he, hk⟩
  rw [h k, Multiset.mem_coe, Option.mem_toList] at hmem
  exact hmem

theorem Lists.eq_none (h : Lists c F s) {k : K} (hk : ∀ e ∈ s, ¬c.isEqual e.1 k = true) :
    F k = none := by
  have hnil := h k
  rw [Multiset.filter_eq_nil.mpr hk] at hnil
  cases hF : F k with
  | none => rfl
  | some e =>
    rw [hF] at hnil
    exact absurd hnil.symm (by simp)

theorem Lists.congr (h : Lists c F s) (hc : c.Lawful) {k k' : K} (hk : c.isEqual k k' = true) :
    F k' = F k := by
  have heq := h k'
  rw [filter_eq_of_isEqual hc hk, h k] at heq
  cases hF : F k with
  | none =>
    cases hF' : F k' with
    | none => rfl
    | some e =>
      rw [hF, hF'] at heq
      exact absurd heq.symm (by simp)
  | some e =>
    have hmem : e ∈ ((F k').toList : Multiset (K × Option V)) := by
      rw [← heq, hF]
      exact Multiset.mem_singleton_self e
    exact Option.mem_toList.mp hmem

theorem Lists.put (h : Lists c F s) (hc : c.Lawful) {k : K} (hnone : F k = none) (v : Option V) :
    Lists c (put c F k v) ((k, v) ::ₘ s) := by
  intro k'
  rw [UtlHashMap.put]
  split
  · next hk =>
      rw [Multiset.filter_cons_of_pos (p := fun e : K × Option V => c.isEqual e.1 k' = true) s hk,
        h k', h.congr hc hk, hnone]
      rfl
  · next hk =>
      rw [Multiset.filter_cons_of_neg (p := fun e : K × Option V => c.isEqual e.1 k' = true) s hk,
        h k']

theorem Lists.drop (h : Lists c F s) (hc : c.Lawful) {k : K} {e : K × Option V}
    [DecidableEq (K × Option V)] (he : e ∈ s) (hke : c.isEqual e.1 k = true) :
    Lists c (drop c F k) (s.erase e) := by
  intro k'
  have hk' := h k'
  rw [← Multiset.cons_erase he] at hk'
  rw [UtlHashMap.drop]
  split
  · next hk =>
      rw [Multiset.filter_cons_of_pos (p := fun e : K × Option V => c.isEqual e.1 k' = true) _
        (hc.trans hke hk), h.congr hc hk, h.eq_some_of_mem he hke] at hk'
      exact (Multiset.cons_inj_right e).mp hk'
  · next hk =>
      rw [Multiset.filter_cons_of_neg (p := fun e : K × Option V => c.isEqual e.1 k' = true) _
        fun he' => hk (hc.trans (hc.symm hke) he')] at hk'
      exact hk'

theorem Lists.drop_of_none (h : Lists c F s) (hc : c.Lawful) {k : K} (hnone : F k = none) :
    UtlHashMap.drop c F k = F := by
  funext k'
  rw [UtlHashMap.drop]
  split
  · next hk => rw [h.congr hc hk, hnone]
  · rfl

/-! ## The map is a partial function -/

/-- The invariant: a sound table whose pairs have the hashes of their keys, and one pair for
every class that the function is defined on. -/
structure Represents (c : UtlContainable K) (m : UtlHashMap K V) (F : Classes K V) : Prop where
  table : UtlHash.Sound filing m.table
  hashed : ∀ pair ∈ m.table.content, pair.hash = c.hash pair.data
  lists : Lists c F m.contents

variable {m : UtlHashMap K V}

theorem represents_new : Represents c new (fun _ => none : Classes K V) where
  table := sound_blank initialBucketBits
  hashed pair hpair := by
    rw [new, Table.content_blank] at hpair
    exact absurd hpair (Multiset.notMem_zero pair)
  lists k := by
    rw [contents, new, Table.content_blank]
    rfl

/-! ### Searches -/

theorem hash_of_lookup_test {key : K} (pair : UtlPair K V)
    (h : (pair.hash == c.hash key && c.isEqual pair.data key) = true) :
    filing.key pair = c.hash key := by
  rw [Bool.and_eq_true, beq_iff_eq] at h
  exact h.1

theorem Represents.mem_of_lookup (h : Represents c m F) {key : K} {pair : UtlPair K V}
    (hlookup : m.lookup c key = some pair) :
    pair ∈ m.table.content ∧ c.isEqual pair.data key = true := by
  obtain ⟨hmem, htest⟩ :=
    h.table.filed.lookup_eq_some (fun pair _ => hash_of_lookup_test pair) hlookup
  rw [Bool.and_eq_true] at htest
  exact ⟨hmem, htest.2⟩

theorem Represents.map_lookup (h : Represents c m F) (hc : c.Lawful) (key : K) :
    (m.lookup c key).map entry = F key := by
  cases hlookup : m.lookup c key with
  | none =>
    have htest := h.table.filed.lookup_eq_none (fun pair _ => hash_of_lookup_test pair) hlookup
    refine (h.lists.eq_none fun e he hequal => ?_).symm
    obtain ⟨pair, hpair, rfl⟩ := Multiset.mem_map.mp he
    have hhash : pair.hash = c.hash key := by
      rw [h.hashed pair hpair]
      exact hc.congruent _ _ hequal
    apply htest pair hpair
    rw [Bool.and_eq_true, beq_iff_eq]
    exact ⟨hhash, hequal⟩
  | some pair =>
    obtain ⟨hmem, hequal⟩ := h.mem_of_lookup hlookup
    exact (h.lists.eq_some_of_mem (Multiset.mem_map_of_mem entry hmem) hequal).symm

theorem Represents.find_eq (h : Represents c m F) (hc : c.Lawful) (key : K) :
    m.find c key = (F key).map Prod.fst := by
  rw [← h.map_lookup hc, Option.map_map]
  rfl

theorem Represents.findValue_eq (h : Represents c m F) (hc : c.Lawful) (key : K) :
    m.findValue c key = (F key).bind Prod.snd := by
  rw [← h.map_lookup hc, Option.bind_map]
  rfl

theorem Represents.contains_eq (h : Represents c m F) (hc : c.Lawful) (key : K) :
    m.contains c key = (F key).isSome := by
  rw [contains, h.find_eq hc, Option.isSome_map]

theorem Represents.entries_eq (h : Represents c m F) : m.entries = m.contents.card := by
  rw [contents, Multiset.card_map]
  exact h.table.counted

/-! ### Changes -/

theorem Represents.of_content (h : Represents c m F) {t : Table (UtlPair K V)} (iterators : Nat)
    (ht : UtlHash.Sound filing t) (hcontent : t.content = m.table.content) :
    Represents c ⟨t, iterators⟩ F where
  table := ht
  hashed pair hpair := h.hashed pair (hcontent ▸ hpair)
  lists := by
    rw [contents, hcontent]
    exact h.lists

theorem Represents.removeIterator (h : Represents c m F) : Represents c m.removeIterator F :=
  h.of_content _ (h.table.resizeIfNeededAndSafe _)
    (content_resizeIfNeededAndSafe h.table.counted _)

theorem Represents.addIterator (h : Represents c m F) : Represents c m.addIterator F :=
  h.of_content _ h.table rfl

theorem Represents.resized (h : Represents c m F) :
    Represents c m.resized F ∧ m.resized.contents = m.contents := by
  have hcontent : m.resized.table.content = m.table.content := Table.content_refile h.table.counted _
  have hcounted : m.resized.table.Counted := by
    rw [Table.Counted, hcontent]
    exact (Table.refile_elements _ h.table.counted _).trans h.table.counted
  refine ⟨h.of_content _ ⟨Table.Filed.refile h.table.counted _, hcounted⟩ hcontent, ?_⟩
  rw [contents, hcontent]
  rfl

theorem Represents.insertKeyAndValue (h : Represents c m F) (hc : c.Lawful) (address : Nat)
    (key : K) (value : Option V) :
    Represents c (m.insertKeyAndValue c address (some key) value).1 (store c F key value) ∧
      (m.insertKeyAndValue c address (some key) value).2 =
        (some key).filter fun k => (F k).isNone := by
  have hF := h.map_lookup hc key
  rw [UtlHashMap.insertKeyAndValue, store, Option.filter_some]
  cases hlookup : m.lookup c key with
  | some pair =>
    rw [hlookup] at hF
    rw [← hF]
    exact ⟨h, rfl⟩
  | none =>
    rw [hlookup] at hF
    have hcontent := h.table.content_insertNew m.isUnLinked
      ⟨address, key, c.hash key, Value.ofCaller value⟩
    rw [← hF]
    refine ⟨⟨h.table.insertNew _ _, fun pair hpair => ?_, ?_⟩, rfl⟩
    · rw [hcontent] at hpair
      rcases Multiset.mem_cons.mp hpair with rfl | hpair
      · rfl
      · exact h.hashed pair hpair
    · rw [contents, hcontent, Multiset.map_cons, entry, Value.toCaller_ofCaller]
      exact h.lists.put hc hF.symm value

theorem Represents.removeAll (h : Represents c m F) :
    Represents c m.removeAll (fun _ => none) where
  table := h.table.clear
  hashed pair hpair := by
    rw [UtlHashMap.removeAll, Table.content_clear h.table.counted] at hpair
    exact absurd hpair (Multiset.notMem_zero pair)
  lists k := by
    rw [contents, UtlHashMap.removeAll, Table.content_clear h.table.counted]
    rfl

theorem Represents.deleted (h : Represents c m F) :
    ((m.destroyAll).2 : Multiset (K × Option V)) = m.contents := by
  rw [destroyAll, Table.taken_eq h.table.counted]
  rfl

section Runs

variable [DecidableEq K] [DecidableEq V]

theorem Represents.removeKeyAndValue (h : Represents c m F) (hc : c.Lawful) (key : K) :
    Represents c (m.removeKeyAndValue c (some key)).1 (drop c F key) ∧
      (m.removeKeyAndValue c (some key)).2 =
        ((F key).map Prod.fst, (m.lookup c key).map UtlPair.value) := by
  have hF := h.map_lookup hc key
  rw [UtlHashMap.removeKeyAndValue]
  cases hlookup : m.lookup c key with
  | none =>
    rw [hlookup] at hF
    rw [h.lists.drop_of_none hc hF.symm, ← hF]
    exact ⟨h, rfl⟩
  | some pair =>
    rw [hlookup] at hF
    obtain ⟨hpair, hequal⟩ := h.mem_of_lookup hlookup
    have hcontent := h.table.content_unlink hpair
    rw [← hF]
    refine ⟨⟨h.table.unlink hpair, fun other hother => h.hashed other ?_, ?_⟩, rfl⟩
    · rw [hcontent] at hother
      exact Multiset.mem_of_mem_erase hother
    · rw [contents, hcontent, Multiset.map_erase_of_mem _ _ hpair]
      exact h.lists.drop hc (Multiset.mem_map_of_mem entry hpair) hequal

/-! ### Steps and runs -/

theorem Represents.gives_removeKeyAndValue (h : Represents c m F) (hc : c.Lawful) (key : K) :
    Gives c F (.removeKeyAndValue (some key)) (m.step c (.removeKeyAndValue (some key))).2 ↔
      KeepsNull c m (.removeKeyAndValue (some key)) := by
  obtain ⟨-, hresult⟩ := h.removeKeyAndValue hc key
  have hF := h.map_lookup hc key
  rw [Gives, step, Prod.map_snd, hresult, Result.keyAndValue.injEq, Option.bind_some]
  refine (and_iff_right rfl).trans ?_
  rw [KeepsNull, ← hF]
  cases m.lookup c key with
  | none => exact ⟨fun _ pair hpair => absurd hpair (by simp), fun _ => rfl⟩
  | some pair =>
    refine (value_eq_toCaller_iff pair.value).trans ⟨fun hvalue pair' hpair' => ?_, fun hkeeps => ?_⟩
    · rw [← Option.some_inj.mp hpair']
      exact hvalue
    · exact hkeeps pair rfl

theorem Represents.destroy_snd (h : Represents c m F) (hc : c.Lawful) (key : K) :
    (m.destroy c (some key)).2 = F key := by
  have hF := h.map_lookup hc key
  simp only [destroy, (h.removeKeyAndValue hc key).2, ← hF]
  cases m.lookup c key with
  | none => rfl
  | some pair => rfl

/-- Every operation keeps the map represented, and answers as it does where no NULL is lost. -/
theorem Represents.step (h : Represents c m F) (hc : c.Lawful) (op : Op K V) :
    Represents c (m.step c op).1 (next c F op) ∧
      (Gives c F op (m.step c op).2 ↔ KeepsNull c m op) := by
  cases op with
  | insert address obj =>
    cases obj with
    | none => exact ⟨h, iff_of_true rfl trivial⟩
    | some key =>
      obtain ⟨hnext, hresult⟩ := h.insertKeyAndValue hc address key none
      exact ⟨hnext, iff_of_true (congrArg Result.key hresult) trivial⟩
  | insertKeyAndValue address key value =>
    cases key with
    | none => exact ⟨h, iff_of_true rfl trivial⟩
    | some key =>
      obtain ⟨hnext, hresult⟩ := h.insertKeyAndValue hc address key value
      exact ⟨hnext, iff_of_true (congrArg Result.key hresult) trivial⟩
  | remove key =>
    cases key with
    | none => exact ⟨h, iff_of_true rfl trivial⟩
    | some key =>
      obtain ⟨hnext, hresult⟩ := h.removeKeyAndValue hc key
      exact ⟨hnext, iff_of_true (congrArg (Result.key ∘ Prod.fst) hresult) trivial⟩
  | removeKeyAndValue key =>
    cases key with
    | none => exact ⟨h, iff_of_true rfl trivial⟩
    | some key => exact ⟨(h.removeKeyAndValue hc key).1, h.gives_removeKeyAndValue hc key⟩
  | destroy key =>
    cases key with
    | none => exact ⟨h, iff_of_true rfl trivial⟩
    | some key =>
      exact ⟨(h.removeKeyAndValue hc key).1,
        iff_of_true (congrArg Result.destroyed (h.destroy_snd hc key)) trivial⟩
  | find key => exact ⟨h, iff_of_true (congrArg Result.key (h.find_eq hc key)) trivial⟩
  | findValue key => exact ⟨h, iff_of_true (congrArg Result.value (h.findValue_eq hc key)) trivial⟩
  | contains key => exact ⟨h, iff_of_true (congrArg Result.truth (h.contains_eq hc key)) trivial⟩
  | removeAll => exact ⟨h.removeAll, iff_of_true rfl trivial⟩
  | destroyAll =>
    refine ⟨h.removeAll, iff_of_true ⟨_, rfl, ?_⟩ trivial⟩
    show Lists c F ((m.destroyAll).2 : Multiset (K × Option V))
    rw [h.deleted]
    exact h.lists
  | entries =>
    exact ⟨h, iff_of_true ⟨m.contents, congrArg Result.count h.entries_eq, h.lists⟩ trivial⟩
  | addIterator => exact ⟨h.addIterator, iff_of_true rfl trivial⟩
  | removeIterator => exact ⟨h.removeIterator, iff_of_true rfl trivial⟩

theorem Represents.run (h : Represents c m F) (hc : c.Lawful) (ops : List (Op K V)) :
    Represents c (m.run c ops).1 (ops.foldl (next c) F) ∧
      (GivesAll c F ops (m.run c ops).2 ↔ KeepsNullAll c m ops) := by
  induction ops generalizing m F with
  | nil => exact ⟨h, iff_of_true rfl trivial⟩
  | cons op ops ih =>
    obtain ⟨hnext, hgives⟩ := h.step hc op
    obtain ⟨hrun, hall⟩ := ih hnext
    refine ⟨hrun, ?_⟩
    rw [KeepsNullAll, ← hgives, ← hall]
    constructor
    · rintro ⟨r, rest, hresults, hr, hrest⟩
      obtain ⟨rfl, rfl⟩ := List.cons.inj hresults
      exact ⟨hr, hrest⟩
    · rintro ⟨hr, hrest⟩
      exact ⟨_, _, rfl, hr, hrest⟩

/-- **The map is a finite partial function on the classes of equal keys**: a run gives what the
function gives, and leaves its entries, each once, before and after a resize, exactly if no
value `NULL` is removed by `removeKeyAndValue`. -/
theorem run_refines_iff (hc : c.Lawful) (ops : List (Op K V)) :
    let m := (run c new ops).1
    let F := ops.foldl (next c) fun _ => none
    GivesAll c (fun _ => none) ops (run c new ops).2 ∧ Lists c F m.contents ∧
        m.entries = m.contents.card ∧ m.resized.contents = m.contents ↔
      KeepsNullAll c new ops := by
  intro m F
  obtain ⟨hrun, hall⟩ := represents_new.run hc ops
  rw [← hall]
  exact and_iff_left ⟨hrun.lists, hrun.entries_eq, hrun.resized.2⟩

end Runs

end Classes

/-! ### A key without a value -/

/-- Numbers that are equal, and hash equally, modulo 50. -/
def moduloKeys : UtlContainable Nat where
  hash n := UInt32.ofNat (n % 50)
  isEqual m n := m % 50 == n % 50

theorem run_refines_iff_moduloKeys :
    moduloKeys.Lawful ∧
      let ops : List (Op Nat Nat) :=
        [.insertKeyAndValue 0 (some 3) (some 7), .insert 1 (some 53), .insert 2 (some 4),
          .removeKeyAndValue (some 103), .remove (some 4)]
      GivesAll moduloKeys (fun _ => none) ops (run moduloKeys new ops).2 := by
  have hc : moduloKeys.Lawful :=
    { refl := fun a => beq_self_eq_true (a % 50)
      symm := fun h => beq_iff_eq.mpr (beq_iff_eq.mp h).symm
      trans := fun h h' => beq_iff_eq.mpr ((beq_iff_eq.mp h).trans (beq_iff_eq.mp h'))
      congruent := fun _ _ h => congrArg UInt32.ofNat (beq_iff_eq.mp h) }
  refine ⟨hc, ((run_refines_iff hc _).mpr ?_).1⟩
  refine ⟨trivial, trivial, trivial, fun pair hpair => ?_, trivial, trivial⟩
  have hlookup : some pair = some ⟨0, 3, 3, .object 7⟩ := by
    rw [← show _ = some pair from hpair]
    decide +kernel
  rw [Option.some_inj.mp hlookup]
  simp

/-- A key is inserted without a value, and removed: the value that comes back is the internal
object and not `NULL`. -/
theorem not_gives_internalNull :
    let ops : List (Op Nat Nat) := [.insert 0 (some 3), .removeKeyAndValue (some 3)]
    (run moduloKeys new ops).2 = [.key (some 3), .keyAndValue (some 3) (some .internalNull)] ∧
      ¬GivesAll moduloKeys (fun _ => none) ops (run moduloKeys new ops).2 := by
  have hresults : (run moduloKeys new ([.insert 0 (some 3), .removeKeyAndValue (some 3)] :
      List (Op Nat Nat))).2 = [.key (some 3), .keyAndValue (some 3) (some .internalNull)] := by
    decide +kernel
  refine ⟨hresults, ?_⟩
  rw [hresults]
  rintro ⟨r, rest, hfirst, -, r', rest', hsecond, hgives, -⟩
  obtain ⟨rfl, rfl⟩ := List.cons.inj hfirst
  obtain ⟨rfl, rfl⟩ := List.cons.inj hsecond
  have hnull : (Result.keyAndValue (some 3) (some .internalNull) : Result Nat Nat) =
      .keyAndValue (some 3) none := hgives
  exact absurd hnull (by decide)

end UtlHashMap

end SipXRouter
