import SipXRouter.Bytes

/-!
# The write buffer of a stream client

`SipClientWriteBuffer` queues the SIP messages and keep-alives for a connection.
The first message of the queue is held as a string with a pointer to what has not
been written yet.  `writeMore` writes until the queue is empty or the connection is
given up; then all that is left is returned as transport errors and the socket is
closed.

The run loop of the client calls `handleMessage` for each message it is handed,
which inserts it and writes; it calls `writeMore` when the socket is ready, and
empties the buffer on shutdown and when the connection has failed.
-/

namespace SipXRouter

open List

/-- A SIP message as `getBytes` serializes it, which is never empty. -/
structure Serialized where
  bytes : Text
  bytes_ne_nil : bytes ≠ []
deriving DecidableEq

namespace WriteBuffer

/-- What can be in the queue. -/
inductive Item where
  | sip (message : Serialized)
  | keepAlive
deriving DecidableEq

namespace Item

/-- What is written for it. -/
def bytes : Item → Text
  | sip message => message.bytes
  | keepAlive => text "\r\n"

theorem bytes_ne_nil : ∀ item : Item, item.bytes ≠ []
  | sip message => message.bytes_ne_nil
  | keepAlive => by decide

end Item

/-- The messages of a list of items, without the keep-alives. -/
def sipMessages (items : List Item) : List Serialized :=
  items.filterMap fun
    | .sip message => some message
    | .keepAlive => none

/-- What is written for a queue. -/
def stream (items : List Item) : Text := items.flatMap Item.bytes

end WriteBuffer

open WriteBuffer

/-- The members of the class; whether the socket is usable and the client has been told
to stop; and what has left the buffer: the bytes that the socket accepted, and the
messages dispatched as transport errors. -/
structure WriteBuffer where
  writeBuffer : List Item := []
  writeString : Text := []
  writePointer : Nat := 0
  writeQueued : Bool := false
  socketOk : Bool := true
  stopped : Bool := false
  written : Text := []
  transportErrors : List Serialized := []
deriving DecidableEq

namespace WriteBuffer

/-- `getMessageQueue()->maxMsgs()`: `OsMsgQ::DEF_MAX_MSGS`. -/
def maxMsgs : Nat := 100

/-- The buffer is emptied; with `reportError` each message is handed back with a transport error. -/
def emptyBuffer (b : WriteBuffer) (reportError : Bool) : WriteBuffer :=
  { b with
    writeBuffer := []
    writeString := []
    writePointer := 0
    writeQueued := false
    transportErrors := b.transportErrors ++ if reportError then sipMessages b.writeBuffer else [] }

/-- `insertMessage` for a SIP message. -/
def insertMessage (b : WriteBuffer) (message : Serialized) : WriteBuffer :=
  let wasEmpty := b.writeBuffer.isEmpty
  let inserted : WriteBuffer :=
    { b with
      writeBuffer := b.writeBuffer ++ [.sip message]
      writeString := if wasEmpty then message.bytes else b.writeString
      writePointer := if wasEmpty then 0 else b.writePointer
      writeQueued := true }
  if maxMsgs < inserted.writeBuffer.length then
    { inserted.emptyBuffer true with stopped := true }
  else inserted

/-- `insertMessage` for a keep-alive, which is appended to the string. -/
def insertKeepAlive (b : WriteBuffer) : WriteBuffer :=
  let wasEmpty := b.writeBuffer.isEmpty
  { b with
    writeBuffer := b.writeBuffer ++ [.keepAlive]
    writeString := if wasEmpty then b.writeString ++ Item.keepAlive.bytes else b.writeString
    writePointer := if wasEmpty then 0 else b.writePointer
    writeQueued := true }

/-- The first message has been written: remove it and set up the next one. -/
def popFirst (b : WriteBuffer) : WriteBuffer :=
  match b.writeBuffer.tail with
  | [] => { b with writeBuffer := [], writeString := [], writePointer := 0, writeQueued := false }
  | item :: rest =>
    { b with
      writeBuffer := item :: rest
      writeString := item.bytes
      writePointer := 0
      writeQueued := true }

/-- Give up the connection. -/
def giveUp (b : WriteBuffer) : WriteBuffer :=
  { b.emptyBuffer true with socketOk := false, stopped := true }

/-- The socket has accepted some bytes from the pointer on. -/
def advance (b : WriteBuffer) (count : Nat) : WriteBuffer :=
  { b with
    written := b.written ++ (b.writeString.drop b.writePointer).take count
    writePointer := b.writePointer + count }

end WriteBuffer

/-- The variables of `writeMore`, with the number of writes attempted. -/
structure WriteLoop where
  buffer : WriteBuffer
  writeRetry : Nat := 0
  writeStatus : Bool := true
  attempts : Nat := 0

namespace WriteLoop

/-- `WRITE_RETRY_MAX`. -/
def writeRetryMax : Nat := 5

/-- The condition of the loop. -/
def running (l : WriteLoop) : Bool := l.buffer.writeQueued && l.writeStatus

/-- What a write returns.  The answers of the socket are given in turn; `none` is a
socket that has gone bad by itself.  A write never returns more than it was given. -/
def writeResult (answers : Nat → Option Int) (l : WriteLoop) : Int :=
  if l.buffer.socketOk then
    match answers l.attempts with
    | some ret => min ret (l.buffer.writeString.length - l.buffer.writePointer : Nat)
    | none => -1
  else -1

/-- One turn of the loop: the next message is taken up, or the rest of this one is written. -/
def round (answers : Nat → Option Int) (l : WriteLoop) : WriteLoop :=
  if l.buffer.writeString.length ≤ l.buffer.writePointer then
    { l with buffer := l.buffer.popFirst, writeRetry := 0 }
  else
    let ret := l.writeResult answers
    if 0 < ret then
      { l with buffer := l.buffer.advance ret.toNat, attempts := l.attempts + 1 }
    else if ret = 0 then
      if writeRetryMax < l.writeRetry + 1 then
        { l with
          buffer := l.buffer.giveUp
          writeRetry := l.writeRetry + 1
          writeStatus := false
          attempts := l.attempts + 1 }
      else { l with writeRetry := l.writeRetry + 1, attempts := l.attempts + 1 }
    else
      { l with buffer := l.buffer.giveUp, writeStatus := false, attempts := l.attempts + 1 }

/-- The loop, for as many rounds as are given. -/
def rounds (answers : Nat → Option Int) : Nat → WriteLoop → WriteLoop
  | 0, l => l
  | n + 1, l => if l.running then rounds answers n (l.round answers) else l

/-- What is left to do: bytes to write, retries and messages to remove. -/
def remaining (l : WriteLoop) : Nat :=
  (l.buffer.writeBuffer.map fun item => item.bytes.length + writeRetryMax + 2).sum -
    l.buffer.writePointer - l.writeRetry

end WriteLoop

namespace WriteBuffer

/-- `writeMore`, with what it returns. -/
def writeMore (b : WriteBuffer) (answers : Nat → Option Int) : WriteBuffer × Bool :=
  let start : WriteLoop := { buffer := b }
  let finished := start.rounds answers start.remaining
  (finished.buffer, finished.writeStatus)

/-! ## The run loop -/

/-- What the run loop does: a SIP message or a keep-alive that was handed to the client, the
socket ready for writing, and the buffer emptied on shutdown or failure. -/
inductive Event where
  | send (message : Serialized) (answers : Nat → Option Int)
  | sendKeepAlive (answers : Nat → Option Int)
  | readyToWrite (answers : Nat → Option Int)
  | empty

/-- What an event does to the buffer. -/
def step (b : WriteBuffer) : Event → WriteBuffer
  | .send message answers => ((b.insertMessage message).writeMore answers).1
  | .sendKeepAlive answers => (b.insertKeepAlive.writeMore answers).1
  | .readyToWrite answers => (b.writeMore answers).1
  | .empty => { b.emptyBuffer true with stopped := true }

/-- What an event puts in the queue. -/
def queuedBy : Event → List Item
  | .send message _ => [.sip message]
  | .sendKeepAlive _ => [.keepAlive]
  | .readyToWrite _ => []
  | .empty => []

/-! ## The invariant -/

/-- The string is what is written for the first message of the queue, and the pointer is
in it; there is nothing of the kind when the queue is empty. -/
def Loaded (b : WriteBuffer) : Prop :=
  match b.writeBuffer with
  | [] => b.writeString = [] ∧ b.writePointer = 0 ∧ b.writeQueued = false
  | item :: _ =>
    b.writeString = item.bytes ∧ b.writePointer ≤ item.bytes.length ∧ b.writeQueued = true

/-- Where the messages handed to the client have gone: `sent` have been written, `returned`
have been given back, and of one message a part may have been written, which is the
message on top of the queue or, when the connection has been given up, the first one given
back. -/
structure Account (items : List Item) (b : WriteBuffer) (sent returned : List Item) (part : Text) :
    Prop where
  items_eq : items = sent ++ returned ++ b.writeBuffer
  written : b.written = stream sent ++ part
  transportErrors : b.transportErrors = sipMessages returned
  part_eq : returned = [] → part = b.writeString.take b.writePointer
  part_prefix : ∀ item ∈ returned.head?, part <+: item.bytes ∧ part ≠ item.bytes
  given_up : returned ≠ [] → b.socketOk = false ∧ b.writePointer = 0

theorem stream_append (items items' : List Item) :
    stream (items ++ items') = stream items ++ stream items' := flatMap_append

theorem sipMessages_append (items items' : List Item) :
    sipMessages (items ++ items') = sipMessages items ++ sipMessages items' :=
  filterMap_append

section Account

variable {items sent returned : List Item} {b : WriteBuffer} {part : Text}

theorem Loaded.emptyBuffer (b : WriteBuffer) (reportError : Bool) :
    Loaded (b.emptyBuffer reportError) := ⟨rfl, rfl, rfl⟩

theorem Loaded.giveUp (b : WriteBuffer) : Loaded b.giveUp := ⟨rfl, rfl, rfl⟩

theorem Loaded.popFirst (b : WriteBuffer) : Loaded b.popFirst := by
  unfold WriteBuffer.popFirst
  split
  · exact ⟨rfl, rfl, rfl⟩
  · exact ⟨rfl, Nat.zero_le _, rfl⟩

theorem popFirst_writeBuffer (b : WriteBuffer) : b.popFirst.writeBuffer = b.writeBuffer.tail := by
  unfold WriteBuffer.popFirst
  split
  · next h => exact h.symm
  · next h => exact h.symm

theorem popFirst_written (b : WriteBuffer) :
    b.popFirst.written = b.written ∧ b.popFirst.transportErrors = b.transportErrors ∧
      b.popFirst.socketOk = b.socketOk ∧ b.popFirst.writePointer = 0 := by
  unfold WriteBuffer.popFirst
  split <;> exact ⟨rfl, rfl, rfl, rfl⟩

theorem Loaded.cons (h : Loaded b) (hqueued : b.writeQueued = true) :
    ∃ item rest, b.writeBuffer = item :: rest ∧ b.writeString = item.bytes ∧
      b.writePointer ≤ item.bytes.length := by
  unfold Loaded at h
  split at h
  · rw [h.2.2] at hqueued
    exact absurd hqueued Bool.false_ne_true
  · next item rest heq => exact ⟨item, rest, heq, h.1, h.2.1⟩

theorem Account.popFirst (h : Account items b sent returned part) (hloaded : Loaded b)
    (hqueued : b.writeQueued = true) (hdone : b.writeString.length ≤ b.writePointer) :
    ∃ item, Account items b.popFirst (sent ++ [item]) [] [] := by
  obtain ⟨item, rest, hbuffer, hstring, hpointer⟩ := hloaded.cons hqueued
  have hreturned : returned = [] := by
    -- behind a failure nothing is written, and no message is empty
    by_contra hne
    have hzero := (h.given_up hne).2
    rw [hstring, hzero, Nat.le_zero] at hdone
    exact item.bytes_ne_nil (eq_nil_of_length_eq_zero hdone)
  have hpart : part = item.bytes := by
    rw [h.part_eq hreturned, take_of_length_le hdone, hstring]
  obtain ⟨hwritten, herrors, -, -⟩ := popFirst_written b
  refine ⟨item, ?_, ?_, ?_, ?_, ?_, ?_⟩
  · rw [h.items_eq, hreturned, popFirst_writeBuffer, hbuffer]
    simp
  · rw [hwritten, h.written, hpart, stream_append]
    simp [stream]
  · rw [herrors, h.transportErrors, hreturned]
  · intro _
    rw [(popFirst_written b).2.2.2, take_zero]
  · exact fun item hitem => absurd hitem (by simp)
  · exact fun hne => absurd rfl hne

theorem Account.advance (h : Account items b sent returned part) (hok : b.socketOk = true)
    (count : Nat) : returned = [] ∧ Account items (b.advance count) sent []
      (b.writeString.take (b.writePointer + count)) := by
  have hreturned : returned = [] := by
    by_contra hne
    rw [(h.given_up hne).1] at hok
    exact Bool.false_ne_true hok
  refine ⟨hreturned, ?_, ?_, ?_, ?_, ?_, ?_⟩
  · rw [h.items_eq, hreturned]
    rfl
  · simp only [WriteBuffer.advance, h.written, h.part_eq hreturned]
    rw [append_assoc, ← take_add]
  · exact h.transportErrors.trans (by rw [hreturned])
  · exact fun _ => rfl
  · exact fun item hitem => absurd hitem (by simp)
  · exact fun hne => absurd rfl hne

theorem Account.giveUp (h : Account items b sent returned part) (hloaded : Loaded b)
    (hqueued : b.writeQueued = true) (hopen : b.writePointer < b.writeString.length) :
    Account items b.giveUp sent (returned ++ b.writeBuffer) part := by
  obtain ⟨item, rest, hbuffer, hstring, hpointer⟩ := hloaded.cons hqueued
  refine ⟨?_, h.written, ?_, ?_, ?_, fun _ => ⟨rfl, rfl⟩⟩
  · rw [h.items_eq]
    simp [WriteBuffer.giveUp, WriteBuffer.emptyBuffer]
  · rw [sipMessages_append, ← h.transportErrors]
    rfl
  · intro hnil
    rw [hbuffer] at hnil
    exact absurd (append_eq_nil_iff.mp hnil).2 (cons_ne_nil _ _)
  · intro first hfirst
    cases returned with
    | cons given returned => exact h.part_prefix first hfirst
    | nil =>
      rw [nil_append, hbuffer, head?_cons, Option.mem_some_iff] at hfirst
      subst hfirst
      rw [h.part_eq rfl, hstring]
      refine ⟨List.take_prefix _ _, fun hall => ?_⟩
      have hlength := congrArg length hall
      rw [length_take] at hlength
      rw [hstring] at hopen
      omega

end Account

end WriteBuffer

/-! ## The loop -/

namespace WriteLoop

variable {items : List Item} {l : WriteLoop} {answers : Nat → Option Int}

/-- What holds before and after each round. -/
structure Inv (items : List Item) (l : WriteLoop) : Prop where
  loaded : Loaded l.buffer
  account : ∃ sent returned part, Account items l.buffer sent returned part
  writeRetry : l.writeStatus = true → l.writeRetry ≤ writeRetryMax
  given_up : l.writeStatus = false → l.buffer.writeBuffer = []

theorem running_iff : l.running = true ↔ l.buffer.writeQueued = true ∧ l.writeStatus = true := by
  rw [running, Bool.and_eq_true]

theorem writeResult_pos (h : 0 < l.writeResult answers) : l.buffer.socketOk = true ∧
    l.buffer.writePointer + (l.writeResult answers).toNat ≤
      max l.buffer.writePointer l.buffer.writeString.length := by
  unfold writeResult at h ⊢
  split at h
  · next hok =>
      simp only [hok, if_true] at h ⊢
      refine ⟨trivial, ?_⟩
      split at h
      · omega
      · omega
  · omega

/-- What one round of the write loop can do. -/
theorem round_cases (answers : Nat → Option Int) (l : WriteLoop) :
    (l.buffer.writeString.length ≤ l.buffer.writePointer ∧
      l.round answers = { l with buffer := l.buffer.popFirst, writeRetry := 0 }) ∨
    (l.buffer.writePointer < l.buffer.writeString.length ∧ 0 < l.writeResult answers ∧
      l.round answers =
        { l with
          buffer := l.buffer.advance (l.writeResult answers).toNat
          attempts := l.attempts + 1 }) ∨
    (l.buffer.writePointer < l.buffer.writeString.length ∧ l.writeRetry + 1 ≤ writeRetryMax ∧
      l.round answers = { l with writeRetry := l.writeRetry + 1, attempts := l.attempts + 1 }) ∨
    (l.buffer.writePointer < l.buffer.writeString.length ∧
      (l.round answers).buffer = l.buffer.giveUp ∧ (l.round answers).writeStatus = false) := by
  unfold round
  split
  · next hdone => exact Or.inl ⟨hdone, rfl⟩
  · next hopen =>
      rw [not_le] at hopen
      refine Or.inr ?_
      dsimp only
      split
      · next hpos => exact Or.inl ⟨hopen, hpos, rfl⟩
      · refine Or.inr ?_
        split
        · split
          · exact Or.inr ⟨hopen, rfl, rfl⟩
          · next hretry => exact Or.inl ⟨hopen, not_lt.mp hretry, rfl⟩
        · exact Or.inr ⟨hopen, rfl, rfl⟩

/-- Every round keeps the account of the bytes. -/
theorem Inv.round (h : Inv items l) (hrunning : l.running = true) : Inv items (l.round answers) := by
  obtain ⟨hqueued, hstatus⟩ := running_iff.mp hrunning
  obtain ⟨sent, returned, part, haccount⟩ := h.account
  obtain ⟨item, rest, hbuffer, hstring, hpointer⟩ := h.loaded.cons hqueued
  have hgoing (hfalse : l.writeStatus = false) : False := by
    rw [hstatus] at hfalse
    exact Bool.noConfusion hfalse
  rcases round_cases answers l with
    ⟨hdone, heq⟩ | ⟨hopen, hpos, heq⟩ | ⟨hopen, hretry, heq⟩ | ⟨hopen, heq, hstop⟩
  · obtain ⟨first, hpop⟩ := haccount.popFirst h.loaded hqueued hdone
    rw [heq]
    exact ⟨Loaded.popFirst _, ⟨_, _, _, hpop⟩, fun _ => Nat.zero_le _, fun hf => (hgoing hf).elim⟩
  · obtain ⟨hok, hlimit⟩ := writeResult_pos hpos
    obtain ⟨-, hadvance⟩ := haccount.advance hok (l.writeResult answers).toNat
    rw [heq]
    refine ⟨?_, ⟨_, _, _, hadvance⟩, h.writeRetry, fun hf => (hgoing hf).elim⟩
    simp only [Loaded, advance, hbuffer]
    rw [max_eq_right hopen.le, hstring] at hlimit
    exact ⟨hstring, hlimit, hqueued⟩
  · rw [heq]
    exact ⟨h.loaded, ⟨_, _, _, haccount⟩, fun _ => hretry, fun hf => (hgoing hf).elim⟩
  · refine ⟨?_, ⟨sent, returned ++ l.buffer.writeBuffer, part, ?_⟩, fun htrue => ?_, fun _ => ?_⟩
    · rw [heq]
      exact Loaded.giveUp _
    · rw [heq]
      exact haccount.giveUp h.loaded hqueued hopen
    · rw [hstop] at htrue
      exact Bool.noConfusion htrue
    · rw [heq]
      rfl

/-- The length that a queue contributes to what is left. -/
def workload (items : List Item) : Nat :=
  (items.map fun item => item.bytes.length + writeRetryMax + 2).sum

theorem workload_cons (item : Item) (rest : List Item) :
    workload (item :: rest) = item.bytes.length + writeRetryMax + 2 + workload rest :=
  sum_cons

/-- Every round brings the loop nearer to its end. -/
theorem remaining_round_lt (h : Inv items l) (hrunning : l.running = true) :
    (l.round answers).remaining < l.remaining := by
  obtain ⟨hqueued, hstatus⟩ := running_iff.mp hrunning
  obtain ⟨item, rest, hbuffer, hstring, hpointer⟩ := h.loaded.cons hqueued
  have hretry := h.writeRetry hstatus
  have hremaining : l.remaining = item.bytes.length + writeRetryMax + 2 + workload rest -
      l.buffer.writePointer - l.writeRetry := by
    rw [← workload_cons, remaining, hbuffer]
    rfl
  rw [hremaining]
  rcases round_cases answers l with
    ⟨hdone, heq⟩ | ⟨hopen, hpos, heq⟩ | ⟨hopen, hretry', heq⟩ | ⟨hopen, heq, -⟩
  · have hnew : (l.round answers).remaining ≤ workload rest := by
      rw [heq, remaining, popFirst_writeBuffer, hbuffer]
      exact (Nat.sub_le _ _).trans (Nat.sub_le _ _)
    omega
  · have hnew : (l.round answers).remaining = workload (item :: rest) -
        (l.buffer.writePointer + (l.writeResult answers).toNat) - l.writeRetry := by
      rw [heq, ← hbuffer]
      rfl
    rw [hnew, workload_cons]
    omega
  · have hnew : (l.round answers).remaining = workload (item :: rest) -
        l.buffer.writePointer - (l.writeRetry + 1) := by
      rw [heq, ← hbuffer]
      rfl
    rw [hnew, workload_cons]
    omega
  · have hnew : (l.round answers).remaining = 0 := by
      rw [remaining, heq]
      simp [giveUp, emptyBuffer]
    omega

/-- **The loop ends**, with what holds before and after each round. -/
theorem rounds_finished (n : Nat) (hn : l.remaining ≤ n) (h : Inv items l) :
    (l.rounds answers n).running = false ∧ Inv items (l.rounds answers n) := by
  induction n generalizing l with
  | zero =>
    refine ⟨?_, h⟩
    by_contra hrunning
    rw [Bool.not_eq_false] at hrunning
    have hlt : (l.round answers).remaining < l.remaining := remaining_round_lt h hrunning
    omega
  | succ n ih =>
    rw [rounds]
    split
    · next hrunning =>
        refine ih ?_ (h.round hrunning)
        have hlt : (l.round answers).remaining < l.remaining := remaining_round_lt h hrunning
        omega
    · next hrunning => exact ⟨Bool.eq_false_iff.mpr hrunning, h⟩

/-- When the loop has ended the queue is empty. -/
theorem Inv.writeBuffer_eq_nil (h : Inv items l) (hended : l.running = false) :
    l.buffer.writeBuffer = [] := by
  cases hstatus : l.writeStatus with
  | false => exact h.given_up hstatus
  | true =>
    rw [running, hstatus, Bool.and_true] at hended
    cases hbuffer : l.buffer.writeBuffer with
    | nil => rfl
    | cons item rest =>
      have hloaded := h.loaded
      simp only [Loaded, hbuffer, hended] at hloaded
      exact absurd hloaded.2.2 Bool.false_ne_true

end WriteLoop

/-! ## Runs -/

namespace WriteBuffer

/-- `writeMore` leaves nothing in the queue. -/
theorem Account.writeMore {items : List Item} {b : WriteBuffer} (hloaded : Loaded b)
    (haccount : ∃ sent returned part, Account items b sent returned part)
    (answers : Nat → Option Int) :
    (b.writeMore answers).1.writeBuffer = [] ∧ Loaded (b.writeMore answers).1 ∧
      ∃ sent returned part, Account items (b.writeMore answers).1 sent returned part := by
  have hstart : WriteLoop.Inv items { buffer := b } :=
    ⟨hloaded, haccount, fun _ => Nat.zero_le _, fun hf => absurd hf.symm Bool.false_ne_true⟩
  obtain ⟨hended, hinv⟩ := WriteLoop.rounds_finished _ (le_refl _) hstart
  exact ⟨hinv.writeBuffer_eq_nil hended, hinv.loaded, hinv.account⟩

section Insert

variable {items sent returned : List Item} {b : WriteBuffer} {part : Text}

theorem Loaded.of_empty (h : Loaded b) (hbuffer : b.writeBuffer = []) :
    b.writeString = [] ∧ b.writePointer = 0 ∧ b.writeQueued = false := by
  simpa only [Loaded, hbuffer] using h

/-- The queue with one message, of which nothing has been written. -/
def withFirst (b : WriteBuffer) (item : Item) : WriteBuffer :=
  { b with writeBuffer := [item], writeString := item.bytes, writePointer := 0, writeQueued := true }

theorem insertMessage_of_empty (hbuffer : b.writeBuffer = []) (message : Serialized) :
    b.insertMessage message = b.withFirst (.sip message) := by
  simp only [insertMessage, hbuffer, nil_append, length_singleton, isEmpty_nil,
    if_true]
  exact if_neg (by decide)

theorem insertKeepAlive_of_empty (hbuffer : b.writeBuffer = []) (hloaded : Loaded b) :
    b.insertKeepAlive = b.withFirst .keepAlive := by
  simp only [insertKeepAlive, hbuffer, (hloaded.of_empty hbuffer).1, nil_append,
    isEmpty_nil, if_true]
  rfl

theorem Loaded.withFirst (b : WriteBuffer) (item : Item) : Loaded (b.withFirst item) :=
  ⟨rfl, Nat.zero_le _, rfl⟩

/-- A message is put into an empty queue. -/
theorem Account.withFirst (h : Account items b sent returned part) (hbuffer : b.writeBuffer = [])
    (hloaded : Loaded b) (item : Item) :
    Account (items ++ [item]) (b.withFirst item) sent returned part := by
  refine ⟨?_, h.written, h.transportErrors, fun hreturned => ?_, h.part_prefix, fun hne => ?_⟩
  · rw [h.items_eq, hbuffer, append_nil]
    rfl
  · rw [h.part_eq hreturned, (hloaded.of_empty hbuffer).1, take_nil]
    rfl
  · exact ⟨(h.given_up hne).1, rfl⟩

end Insert

/-- Between two events the queue is empty and everything is accounted for. -/
structure Settled (items : List Item) (b : WriteBuffer) : Prop where
  writeBuffer : b.writeBuffer = []
  loaded : Loaded b
  account : ∃ sent returned part, Account items b sent returned part

/-- Between the calls all bytes are accounted for. -/
theorem Settled.step {items : List Item} {b : WriteBuffer} (h : Settled items b) (e : Event) :
    Settled (items ++ queuedBy e) (b.step e) := by
  obtain ⟨sent, returned, part, haccount⟩ := h.account
  have hwrite (item : Item) (answers : Nat → Option Int) :
      Settled (items ++ [item]) ((b.withFirst item).writeMore answers).1 := by
    obtain ⟨hempty, hloaded, hdone⟩ := Account.writeMore (Loaded.withFirst b item)
      ⟨sent, returned, part, haccount.withFirst h.writeBuffer h.loaded item⟩ answers
    exact ⟨hempty, hloaded, hdone⟩
  cases e with
  | send message answers =>
    simp only [WriteBuffer.step, queuedBy, insertMessage_of_empty h.writeBuffer]
    exact hwrite (.sip message) answers
  | sendKeepAlive answers =>
    simp only [WriteBuffer.step, queuedBy, insertKeepAlive_of_empty h.writeBuffer h.loaded]
    exact hwrite .keepAlive answers
  | readyToWrite answers =>
    obtain ⟨hempty, hloaded, hdone⟩ := Account.writeMore h.loaded h.account answers
    rw [queuedBy, append_nil]
    exact ⟨hempty, hloaded, hdone⟩
  | empty =>
    -- there is nothing to empty
    rw [queuedBy, append_nil]
    refine ⟨rfl, Loaded.emptyBuffer b true, sent, returned, part, ?_, haccount.written, ?_, ?_,
      haccount.part_prefix, fun hne => ⟨(haccount.given_up hne).1, rfl⟩⟩
    · rw [haccount.items_eq, h.writeBuffer]
      rfl
    · rw [← haccount.transportErrors]
      simp [WriteBuffer.step, WriteBuffer.emptyBuffer, h.writeBuffer, sipMessages]
    · intro hreturned
      rw [haccount.part_eq hreturned, (h.loaded.of_empty h.writeBuffer).1, take_nil]
      rfl

/-- The messages that a run hands to the client, in order. -/
def queued (events : List Event) : List Item := events.flatMap queuedBy

/-- The state after a run. -/
def run (events : List Event) : WriteBuffer := events.foldl step {}

theorem settled_run (events : List Event) : Settled (queued events) (run events) := by
  induction events using reverseRecOn with
  | nil =>
    refine ⟨rfl, ⟨rfl, rfl, rfl⟩, [], [], [], rfl, rfl, rfl, fun _ => rfl, ?_, ?_⟩
    · exact fun item hitem => absurd hitem (by simp)
    · exact fun hne => absurd rfl hne
  | append_singleton events e ih =>
    have hqueued : queued (events ++ [e]) = queued events ++ queuedBy e := by simp [queued]
    rw [hqueued, run, foldl_append]
    exact ih.step e

/-- **Nothing is lost, repeated or out of order.**  After any sequence of events, whatever
the socket has answered, the messages handed to the client are divided in two: the first
ones have been written completely, one after the other; the SIP messages among the others
have each been returned once as a transport error, and of these only a part of the first
one, and not all of it, may have been written.  What the socket has accepted is the start
of what was to be written, and nothing is left in the queue. -/
theorem delivered_run (events : List Event) :
    (run events).written <+: stream (queued events) ∧
    (run events).writeBuffer = [] ∧
    ∃ sent returned part,
      queued events = sent ++ returned ∧
      (run events).written = stream sent ++ part ∧
      (run events).transportErrors = sipMessages returned ∧
      (returned = [] → part = []) ∧
      (∀ item ∈ returned.head?, part <+: item.bytes ∧ part ≠ item.bytes) := by
  obtain ⟨hempty, hloaded, sent, returned, part, haccount⟩ := settled_run events
  have hqueued : queued events = sent ++ returned := by
    rw [haccount.items_eq, hempty, append_nil]
  have hnone : returned = [] → part = [] := by
    intro hreturned
    rw [haccount.part_eq hreturned, (hloaded.of_empty hempty).1, take_nil]
  refine ⟨?_, hempty, sent, returned, part, hqueued, haccount.written, haccount.transportErrors,
    hnone, haccount.part_prefix⟩
  rw [haccount.written, hqueued, stream_append, prefix_append_right_inj]
  cases returned with
  | nil => rw [hnone rfl]; exact nil_prefix
  | cons item rest =>
    exact (haccount.part_prefix item rfl).1.trans (prefix_append _ _)

/-- A message that is cut off by an error, and what is handed to the client after it. -/
example :
    let invite : Serialized := ⟨text "INVITE", by decide⟩
    let bye : Serialized := ⟨text "BYE", by decide⟩
    let b := run [.send bye fun _ => some 2,
      .send invite fun n => if n = 0 then some 4 else some (-1), .send bye fun _ => some 3]
    b.written = text "BYEINVI" ∧ b.transportErrors = [invite, bye] := by
  decide

end WriteBuffer

end SipXRouter
