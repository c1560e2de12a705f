import SipXRouter.Bytes
import SipXRouter.Block
import SipXRouter.Outcome

/-!
# The representation of a string

A `UtlString` keeps its bytes in a buffer of its own or in a block from the heap, counts
them in `mSize`, and ends them with a NUL, so that `data()` can be handed out as a C string.
Each operation moves bytes, enlarges the buffer where it has to, and writes the NUL.

`capacity` copies the bytes of a string that is not empty into the larger block without
their NUL.  The operations that call it write a NUL afterwards; called by itself it leaves
whatever the block held.

## Design notes

* Lengths of objects are natural numbers: two objects never fill the address space.  Numbers
  that a caller gives are `size_t`, and computing with them wraps around.
* A `const char*` does not point into the string itself, while a `const UtlString&` may be
  the string.
* `setLength`, which asserts that its argument is in range, is left out.
-/

namespace SipXRouter

/-- `UTLSTRING_MIN_INCREMENT`. -/
def utlStringMinIncrement : Nat := 100

/-- `MAX_NUMBER_STRING_SIZE`. -/
def maxNumberStringSize : Int := 256

/-- A number as a `size_t`. -/
def toSizeT (i : Int) : Nat := (i % 2 ^ 64).toNat

/-- `UTLSTRING_NOT_FOUND` and `UTLSTRING_TO_END`, as a `size_t`. -/
def utlStringToEnd : Nat := 2 ^ 64 - 1

/-- What memory holds that has not been written: the built-in buffer of a new string behind
its first byte, and the blocks of `new`, which may also fail. -/
structure Memory where
  builtIn : Fin 99 → Byte
  allocate : Nat → Option Text
  length_allocate : ∀ {n block}, allocate n = some block → block.length = n

/-- The members of a `UtlString`; `onHeap` says that `mpData` is not `mBuiltIn`. -/
structure UtlStringRep where
  mpData : Text
  mSize : Nat := 0
  onHeap : Bool := false
deriving DecidableEq

namespace UtlStringRep

open Outcome

/-- `mCapacity`, the size of the buffer. -/
def mCapacity (s : UtlStringRep) : Nat := s.mpData.length

/-- **The invariant**: the bytes leave room for a NUL, and it is there. -/
structure Inv (s : UtlStringRep) : Prop where
  size_lt : s.mSize < s.mCapacity
  terminated : s.mpData[s.mSize]? = some 0

/-- The bytes of a string, without the terminator. -/
def bytes (s : UtlStringRep) : Text := s.mpData.take s.mSize

/-- `UtlString()`. -/
def empty (mem : Memory) : UtlStringRep where
  mpData := 0 :: List.ofFn mem.builtIn

/-! ## Growing, writing, appending -/

/-- Bytes written into the buffer. -/
def store (pos : Nat) (bytes : Text) (s : UtlStringRep) : Outcome UtlStringRep :=
  (Block.write s.mpData pos bytes).bind fun data => done { s with mpData := data }

/-- A new size, and the NUL there. -/
def setEnd (size : Nat) (s : UtlStringRep) : Outcome UtlStringRep :=
  store size [0] { s with mSize := size }

/-- The size of the block that `capacity(N)` asks for. -/
def blockSize (N : Nat) (s : UtlStringRep) : Nat :=
  if N < s.mCapacity + utlStringMinIncrement then s.mCapacity + utlStringMinIncrement else N

/-- `capacity(size_t)`. -/
def capacity (mem : Memory) (N : Nat) (s : UtlStringRep) : Outcome UtlStringRep :=
  if s.mCapacity < N then
    match mem.allocate (s.blockSize N) with
    | none => raise s
    | some newData =>
      -- without the NUL, unless the string is empty
      let copied :=
        if 0 < s.mSize then
          (Block.read s.mpData 0 s.mSize).bind (Block.write newData 0)
        else Block.write newData 0 [0]
      copied.bind fun data => done { s with mpData := data, onHeap := true }
  else done s

/-- `append(const char*, size_t)`, with the bytes read behind the growth. -/
def appendWith (mem : Memory) (N : Nat) (read : UtlStringRep → Option Text) (s : UtlStringRep) :
    Outcome UtlStringRep :=
  if 0 < N ∧ N ≠ utlStringToEnd then
    (capacity mem (s.mSize + N + 1) s).andThen fun grown =>
      (read grown).bind fun bytes =>
        (store s.mSize bytes grown).andThen (setEnd (s.mSize + N))
  else done s

/-- `append` of bytes that lie elsewhere. -/
def appendBytes (mem : Memory) (bytes : Text) : UtlStringRep → Outcome UtlStringRep :=
  appendWith mem bytes.length fun _ => some bytes

/-- `append(const char*)`; nothing is a null pointer. -/
def appendChars (mem : Memory) (szStr : Option Text) (s : UtlStringRep) : Outcome UtlStringRep :=
  match szStr with
  | none => done s
  | some szStr => appendBytes mem (cString szStr) s

/-- A `const UtlString&`: another string, which is a valid one, or the string itself. -/
inductive Source where
  | other (str : UtlStringRep) (valid : str.Inv)
  | self

/-- The string that is referred to. -/
def Source.string (s : UtlStringRep) : Source → UtlStringRep
  | .other str _ => str
  | .self => s

/-- Bytes of the string that is referred to, read when `s` has grown to `grown`.  A buffer
from the heap is gone by then. -/
def Source.read (src : Source) (pos length : Nat) (s grown : UtlStringRep) : Option Text :=
  match src with
  | .other str _ => Block.read str.mpData pos length
  | .self =>
    if s.onHeap ∧ s.mCapacity < grown.mCapacity then none else Block.read s.mpData pos length

/-- `append(const UtlString&)`. -/
def append (mem : Memory) (str : Source) (s : UtlStringRep) : Outcome UtlStringRep :=
  appendWith mem (str.string s).mSize (str.read 0 (str.string s).mSize s) s

/-- The length that `append(const UtlString&, size_t, size_t)` settles for. -/
def partLength (str : UtlStringRep) (position length : Nat) : Nat :=
  if length = utlStringToEnd ∨ str.mSize < toSizeT (position + length) then str.mSize - position
  else length

/-- `append(const UtlString&, size_t, size_t)`.  A length with which the sum wraps around is
taken as it is, and more would be copied than there is. -/
def appendPart (mem : Memory) (str : Source) (position length : Nat) (s : UtlStringRep) :
    Outcome UtlStringRep :=
  if position < (str.string s).mSize then
    let length := partLength (str.string s) position length
    if position + length ≤ (str.string s).mSize then
      appendWith mem length (str.read position length s) s
    else none
  else done s

/-- `appendFormattedNumber`, with the result of `snprintf` and what it wrote. -/
def appendFormattedNumber (mem : Memory) (formatResult : Int) (conversionString format : Text)
    (s : UtlStringRep) : Outcome UtlStringRep :=
  if 0 < formatResult ∧ formatResult < maxNumberStringSize then
    appendChars mem (some conversionString) s
  else
    ((appendChars mem (some (text "(UtlString::appendNumber format error using '")) s).andThen
      (appendChars mem (some format))).andThen (appendChars mem (some (text "')")))

/-! ## Removing and replacing -/

/-- `remove(size_t)`. -/
def remove (pos : Nat) (s : UtlStringRep) : Outcome UtlStringRep :=
  if pos < s.mSize then setEnd pos s else done s

/-- `remove(size_t, size_t)`. -/
def removePart (pos N : Nat) (s : UtlStringRep) : Outcome UtlStringRep :=
  if 0 < N ∧ N ≤ toSizeT (s.mSize - pos) ∧ pos < s.mSize then
    (Block.read s.mpData (pos + N) (s.mSize - (pos + N) + 1)).bind fun tail =>
      (store pos tail s).andThen (setEnd (s.mSize - N))
  else done s

def replaceAt (pos : Nat) (newChar : Byte) (s : UtlStringRep) : Outcome UtlStringRep :=
  if pos < s.mSize then store pos [newChar] s else done s

def mapBytes (f : Byte → Byte) (s : UtlStringRep) : Outcome UtlStringRep :=
  store 0 (s.bytes.map f) s

/-- `replace(const char, const char)`. -/
def replaceChar (src tgt : Byte) (s : UtlStringRep) : Outcome UtlStringRep :=
  if src ≠ 0 ∧ tgt ≠ 0 then mapBytes (fun c => if c = src then tgt else c) s else done s

/-- Empty the string and give it other bytes, as the operations do that build the new value
in a string of its own. -/
def become (mem : Memory) (newUtlString s : UtlStringRep) : Outcome UtlStringRep :=
  (remove 0 s).andThen fun s => appendBytes mem newUtlString.bytes s

/-- The bytes of the buffer that `replace(pos, N, …)` keeps behind those it replaces: where
they start, and their number if that is positive as an `int`. -/
def replaceTail (pos N : Nat) (s : UtlStringRep) : Nat × Nat :=
  (toSizeT (pos + N),
    if 0 < toInt32 (s.mSize - N - pos) then toSizeT (s.mSize - N - pos) else 0)

/-- `replace(size_t, size_t, const char*, size_t)`. -/
def replace (mem : Memory) (pos N : Nat) (replaceStr : Option Text) (L : Nat) (s : UtlStringRep) :
    Outcome UtlStringRep :=
  match replaceStr with
  | none => done s
  | some replaceStr =>
    if L ≤ (cString replaceStr).length then
      let tail := s.replaceTail pos N
      making
        (((appendWith mem pos (fun _ => Block.read s.mpData 0 pos) (empty mem)).andThen
          (appendBytes mem (replaceStr.take L))).andThen
          (appendWith mem tail.2 fun _ => Block.read s.mpData tail.1 tail.2)) s
        fun newUtlString => become mem newUtlString s
    else done s

/-- `prepend`.  The string itself is appended as a C string, which needs its NUL. -/
def prepend (mem : Memory) (szStr : Option Text) (s : UtlStringRep) : Outcome UtlStringRep :=
  making
    ((appendChars mem szStr (empty mem)).andThen fun newUtlString =>
      if s.mpData.contains 0 then appendChars mem (some s.mpData) newUtlString else none) s
    fun newUtlString => become mem newUtlString s

/-! ## Inserting -/

/-- `insert(size_t, const char*, size_t)`, with the bytes read when the string has grown and
the place for them is made. -/
def insertWith (mem : Memory) (position N : Nat) (read : UtlStringRep → Option Text)
    (s : UtlStringRep) : Outcome UtlStringRep :=
  if position ≤ s.mSize then
    (capacity mem (s.mSize + N + 1) s).andThen fun grown =>
      (Block.read grown.mpData position (s.mSize - position)).bind fun tail =>
        (store (position + N) tail grown).andThen fun opened =>
          (read opened).bind fun bytes =>
            (store position bytes opened).andThen (setEnd (s.mSize + N))
  else done s

/-- `insert` of bytes that lie elsewhere. -/
def insertBytes (mem : Memory) (position : Nat) (source : Text) :
    UtlStringRep → Outcome UtlStringRep :=
  insertWith mem position source.length fun _ => some source

/-- `insert(size_t, const char*)`. -/
def insertChars (mem : Memory) (position : Nat) (source : Option Text) (s : UtlStringRep) :
    Outcome UtlStringRep :=
  match source with
  | none => done s
  | some source =>
    if position < s.mSize then insertBytes mem position (cString source) s
    else if position = s.mSize then appendChars mem (some source) s
    else done s

/-- The bytes of the string that is inserted.  Those of the string itself may not lie where
they are copied to. -/
def Source.readApart (src : Source) (position : Nat) (s opened : UtlStringRep) : Option Text :=
  match src with
  | .other str _ => Block.read str.mpData 0 str.mSize
  | .self =>
    if s.mCapacity < opened.mCapacity then
      if s.onHeap then none else Block.read s.mpData 0 s.mSize
    else if position < s.mSize then none
    else Block.read opened.mpData 0 s.mSize

/-- `insert(size_t, const UtlString&)`. -/
def insert (mem : Memory) (start : Nat) (str : Source) (s : UtlStringRep) : Outcome UtlStringRep :=
  if start ≤ s.mSize ∧ 0 < (str.string s).mSize then
    insertWith mem start (str.string s).mSize (str.readApart start s) s
  else done s

/-! ## Stripping -/

inductive StripType where
  | leading | trailing | both
deriving DecidableEq

/-- The blanks that `strip(StripType)` removes. -/
def isStripped : Byte → Bool := oneOf "\t \n\r"

/-- `strip(leading)` for blanks.  The count is an `unsigned int`; where it can reach the size
it stops there, and otherwise the pointer goes on to the first byte that is no blank. -/
def stripLeading (s : UtlStringRep) : Outcome UtlStringRep :=
  let run := (s.mpData.takeWhile isStripped).length
  let removed (removeLeading : Nat) : Outcome UtlStringRep :=
    if 0 < removeLeading then removePart 0 removeLeading s else done s
  if s.mSize < 2 ^ 32 then removed (min run s.mSize)
  else if run < s.mCapacity then removed (run % 2 ^ 32)
  else none

/-- `strip(trailing)` for blanks.  The pointer may not go before the buffer. -/
def stripTrailing (s : UtlStringRep) : Outcome UtlStringRep :=
  let count := (s.bytes.reverse.takeWhile isStripped).length
  if count = s.mSize ∧ 2 ^ 32 ≤ count then none
  else
    let removeTrailing := count % 2 ^ 32
    if 0 < removeTrailing then remove (s.mSize - removeTrailing) s else done s

/-- `strip(StripType)`. -/
def strip (type : StripType) (s : UtlStringRep) : Outcome UtlStringRep :=
  if 0 < s.mSize then
    match type with
    | .both =>
      (stripLeading s).andThen fun s => if 0 < s.mSize then stripTrailing s else done s
    | .leading => stripLeading s
    | .trailing => stripTrailing s
  else done s

/-- One end of `strip(StripType, char)`.  A count that wraps around never comes to an end. -/
def stripCharCount (count : Nat) (removed : Nat → Outcome UtlStringRep) (s : UtlStringRep) :
    Outcome UtlStringRep :=
  if 2 ^ 32 ≤ count then none else if 0 < count then removed count else done s

/-- `strip(StripType, char)`. -/
def stripChar (type : StripType) (toBeStriped : Byte) (s : UtlStringRep) : Outcome UtlStringRep :=
  if 0 < s.mSize then
    (if type = .trailing then done s
      else stripCharCount (s.bytes.takeWhile (· == toBeStriped)).length
        (fun count => removePart 0 count s) s).andThen fun s =>
      if type = .leading then done s
      else stripCharCount (s.bytes.reverse.takeWhile (· == toBeStriped)).length
        (fun count => remove (s.mSize - count) s) s
  else done s

/-! ## Assigning and resizing -/

/-- `operator=(const char*)`. -/
def assignChars (mem : Memory) (szStr : Option Text) (s : UtlStringRep) : Outcome UtlStringRep :=
  (remove 0 s).andThen (appendChars mem szStr)

/-- `operator=(const UtlString&)`. -/
def assign (mem : Memory) (str : Source) (s : UtlStringRep) : Outcome UtlStringRep :=
  match str with
  | .self => done s
  | .other other _ =>
    ((remove 0 s).andThen (capacity mem other.mCapacity)).andThen (append mem str)

/-- `resize`.  The loop writes NULs up to the new size. -/
def resize (mem : Memory) (N : Nat) (s : UtlStringRep) : Outcome UtlStringRep :=
  if s.mSize < N then
    (if s.mCapacity ≤ N then capacity mem (toSizeT (N + 1)) s else done s).andThen fun grown =>
      (store s.mSize (List.replicate (N - s.mSize) 0) grown).andThen (setEnd N)
  else remove N s

/-! ## Operations -/

/-- The constructors. -/
inductive Construct where
  | default
  | chars (szSource : Option Text)
  | bytes (szSource : Text)
  | copy (source : UtlStringRep) (valid : source.Inv)
  | copyPart (source : UtlStringRep) (valid : source.Inv) (length : Nat)

/-- A new string. -/
def construct (mem : Memory) : Construct → Outcome UtlStringRep
  | .default => done (empty mem)
  | .chars szSource => appendChars mem szSource (empty mem)
  | .bytes szSource => appendBytes mem szSource (empty mem)
  | .copy source valid =>
    (capacity mem source.mCapacity (empty mem)).andThen (append mem (.other source valid))
  | .copyPart source _ length =>
    (capacity mem source.mCapacity (empty mem)).andThen
      (appendWith mem (min length source.mSize)
        fun _ => Block.read source.mpData 0 (min length source.mSize))

/-- The operations that change a string. -/
inductive Op where
  | assignChars (szStr : Option Text)
  | assign (str : Source)
  | appendChars (szStr : Option Text)
  | appendBytes (bytes : Text)
  | append (str : Source)
  | appendPart (str : Source) (position length : Nat)
  | appendChar (c : Byte)
  | appendNumber (formatResult : Int) (conversionString format : Text)
  | prepend (szStr : Option Text)
  | insertChars (position : Nat) (source : Option Text)
  | insertBytes (position : Nat) (source : Text)
  | insertChar (position : Nat) (source : Byte)
  | insert (start : Nat) (str : Source)
  | remove (pos : Nat)
  | removePart (pos N : Nat)
  | replaceAt (pos : Nat) (newChar : Byte)
  | replaceChar (src tgt : Byte)
  | replaceChars (pos N : Nat) (replaceStr : Text)
  | replaceString (pos N : Nat) (replaceStr : Source)
  | replace (pos N : Nat) (replaceStr : Option Text) (L : Nat)
  | strip (type : StripType)
  | stripChar (type : StripType) (toBeStriped : Byte)
  | toLower
  | toUpper
  | resize (N : Nat)
  | capacity (N : Nat)

/-- One operation. -/
def step (mem : Memory) (s : UtlStringRep) : Op → Outcome UtlStringRep
  | .assignChars szStr => s.assignChars mem szStr
  | .assign str => s.assign mem str
  | .appendChars szStr => s.appendChars mem szStr
  | .appendBytes bytes => s.appendBytes mem bytes
  | .append str => s.append mem str
  | .appendPart str position length => s.appendPart mem str position length
  | .appendChar c => s.appendBytes mem [c]
  | .appendNumber formatResult conversionString format =>
    s.appendFormattedNumber mem formatResult conversionString format
  | .prepend szStr => s.prepend mem szStr
  | .insertChars position source => s.insertChars mem position source
  | .insertBytes position source => s.insertBytes mem position source
  | .insertChar position source => s.insertBytes mem position [source]
  | .insert start str => s.insert mem start str
  | .remove pos => s.remove pos
  | .removePart pos N => s.removePart pos N
  | .replaceAt pos newChar => s.replaceAt pos newChar
  | .replaceChar src tgt => s.replaceChar src tgt
  | .replaceChars pos N replaceStr =>
    s.replace mem pos N (some replaceStr) (cString replaceStr).length
  | .replaceString pos N replaceStr =>
    s.replace mem pos N (some (replaceStr.string s).mpData) (replaceStr.string s).mSize
  | .replace pos N replaceStr L => s.replace mem pos N replaceStr L
  | .strip type => s.strip type
  | .stripChar type toBeStriped => s.stripChar type toBeStriped
  | .toLower => s.mapBytes SipXRouter.toLower
  | .toUpper => s.mapBytes SipXRouter.toUpper
  | .resize N => s.resize mem N
  | .capacity N => s.capacity mem N

/-! ## What the operations need -/

/-- The buffer comes from the heap and is replaced by a larger one when `length` bytes are
added. -/
def Moves (length : Nat) (s : UtlStringRep) : Prop :=
  s.onHeap = true ∧ s.mCapacity < s.mSize + length + 1

/-- The bytes that `replace` keeps lie in the buffer. -/
def ReplaceInRange (pos N : Nat) (s : UtlStringRep) : Prop :=
  (pos = utlStringToEnd ∨ pos ≤ s.mCapacity) ∧
    ((s.replaceTail pos N).2 = 0 ∨
      (s.replaceTail pos N).1 + (s.replaceTail pos N).2 ≤ s.mCapacity)

/-- What an operation needs to keep the invariant.

* `capacity` does not enlarge the buffer of a string that is not empty, unless the new block
  happens to hold a NUL in the right place.
* A string that is added to itself stays in its buffer, or leaves the built-in one; one that
  is inserted into itself leaves the built-in one or is added at the end.
* The ranges that `append` and `replace` are given lie within the strings.
* The size given to `resize` leaves room for the NUL.
* Fewer than `2 ^ 32` bytes are stripped of a string that consists of them, or by a
  character. -/
def Safe (mem : Memory) (s : UtlStringRep) : Op → Prop
  | .capacity N => 0 < s.mSize → s.mCapacity < N →
      ∀ block, mem.allocate (s.blockSize N) = some block → block[s.mSize]? = some 0
  | .append .self => ¬ s.Moves s.mSize
  | .appendPart str position length => position < (str.string s).mSize →
      (length = utlStringToEnd ∨ position + length < 2 ^ 64) ∧
        match str with
        | .other _ _ => True
        | .self => ¬ s.Moves (partLength s position length)
  | .insert start .self => start ≤ s.mSize → 0 < s.mSize →
      if s.mCapacity < s.mSize + s.mSize + 1 then s.onHeap = false else start = s.mSize
  | .replaceChars pos N _ => s.ReplaceInRange pos N
  | .replaceString pos N _ => s.ReplaceInRange pos N
  | .replace pos N _ _ => s.ReplaceInRange pos N
  | .resize N => s.mSize < N → N + 1 < 2 ^ 64
  | .strip type => type ≠ .leading → (∀ c ∈ s.bytes, isStripped c = true) → s.mSize < 2 ^ 32
  | .stripChar type toBeStriped =>
    (type ≠ .trailing → (s.bytes.takeWhile (· == toBeStriped)).length < 2 ^ 32) ∧
      (type ≠ .leading → (s.bytes.reverse.takeWhile (· == toBeStriped)).length < 2 ^ 32)
  | _ => True

end UtlStringRep

end SipXRouter
