import Lupine.Foundation.LittleEndian
import Lupine.Foundation.Machine
import Lupine.Transport.Message
import Lupine.Transport.RequestIds
import Mathlib.Data.PNat.Notation
import Mathlib.Data.PNat.Defs

/-!
# Deferred writes

A request whose caller waits for nothing is not written at once: `rpc_write_end_deferred` appends a
copy of it to the pending bytes of the connection. They go out as one write when the timer of the
sender thread fires, or before the next message that is not deferred: a request that somebody waits
for, a response, a lane termination, or a deferred request with a framed entry, which is not worth
copying. All of it happens under the write lock of the connection, which a writer holds from the
start of its message to its end.

## What is kept

Whatever the order of the steps, the bytes on the wire are those of the first messages that ended
and the pending bytes those of the others, in the order in which the lock was taken.

## Turns

A writer has a turn, from the lock to the unlock, and at most one message ends in a turn. `InTurn`
says that the messages that ended did so in the order of their turns, and `Batched` that they are
those on the wire and behind them the pending ones. Every way of ending a message, and the timer,
is a combination of a flush, a write and a copy, each with its lemma about the two.
-/

namespace Lupine

open Foundation

/-! ## One write of the transport

The transport sends frames of any lengths; however it cuts them, what has gone out when the call
returns is the encoding of the entries. -/

/-- `h2_write_source::remaining`. -/
def remaining (cursors : List WriteCursor) : ℕ :=
  (cursors.map fun c ↦ c.len + c.src.length).sum

/-- `rpc_http2_writev` on a transport that does not fail. The library sends frames of the given
lengths; the call returns when no byte remains, and `none` is that it has not. -/
def rpcHttp2Writev (lz4 : Lz4) (compressScratch : List UInt8) (entries : List WriteEntry)
    (frames : List ℕ+) : Option SendState :=
  match serve lz4 (http2Writev compressScratch entries) (frames.map PNat.val) with
  | some (s, _) => if remaining s.cursors = 0 then some s else none
  | none => none

section Writev

variable (lz4 : Lz4)

theorem remaining_cons (c : WriteCursor) (cs : List WriteCursor) :
    remaining (c :: cs) = c.len + c.src.length + remaining cs := rfl

theorem remaining_eq_zero_iff {scratch : List UInt8} {cursors : List WriteCursor}
    (h : CursorsOk scratch cursors) :
    remaining cursors = 0 ↔ cursors.flatMap (WriteCursor.unsent lz4 scratch) = [] := by
  induction cursors with
  | nil => exact iff_of_true rfl rfl
  | cons c cs ih =>
    have hread := h.1.length_read
    rw [remaining_cons, List.flatMap_cons, List.append_eq_nil_iff, ← ih (.of_fresh h.2),
      Nat.add_eq_zero_iff, Nat.add_eq_zero_iff]
    refine and_congr_left fun _ ↦ ⟨fun ⟨hlen, hsrc⟩ ↦ ?_, fun hnil ↦ ?_⟩
    · exact WriteCursor.unsent_eq_nil lz4 hlen (List.length_eq_zero_iff.mp hsrc) scratch
    · rw [WriteCursor.unsent, List.append_eq_nil_iff] at hnil
      refine ⟨by rw [← hread, hnil.1]; rfl, List.length_eq_zero_iff.mpr ?_⟩
      by_contra hsrc
      exact encode_ne_nil lz4 true hsrc hnil.2

/-- A write that returns has put the encoding of its entries on the wire, and it returns at the
latest after as many frames as that has bytes. -/
theorem rpcHttp2Writev_spec (compressScratch : List UInt8) (entries : List WriteEntry)
    (frames : List ℕ+) :
    (∀ s, rpcHttp2Writev lz4 compressScratch entries frames = some s →
      s.sent = messageEncoding lz4 entries) ∧
    ((messageEncoding lz4 entries).length ≤ frames.length →
      (rpcHttp2Writev lz4 compressScratch entries frames).isSome) := by
  obtain ⟨hok, hunsent⟩ := http2Writev_spec lz4 compressScratch entries
  have hpos : ∀ length ∈ frames.map PNat.val, 0 < length := by
    intro length hlength
    obtain ⟨n, -, rfl⟩ := List.mem_map.mp hlength
    exact n.pos
  obtain ⟨s, eof, hserve, hok', hsum, -, hall⟩ := serve_spec lz4 hok hpos
  rw [hunsent] at hsum hall
  rw [List.length_map] at hall
  rw [rpcHttp2Writev, hserve]
  refine ⟨fun s' h ↦ ?_, fun hlen ↦ ?_⟩
  · simp only at h
    split_ifs at h with hremaining
    obtain rfl := Option.some.inj h
    have hdone : s.unsent lz4 = [] := (remaining_eq_zero_iff lz4 hok').mp hremaining
    rw [hdone, List.append_nil] at hsum
    exact hsum
  · simp only
    rw [if_pos ((remaining_eq_zero_iff lz4 hok').mpr (hall hlen))]
    rfl

end Writev

/-! ## The connection

The queue has three entries for the header and one for each piece of the body. An entry that is not
framed goes out as it is. -/

/-- `rpc_deferred_write_state`; the sender thread exists as long as it does. -/
structure DeferredWriteState where
  bytes : List UInt8 := []
  pendingRequests : ℕ := 0
  batches : ℕ := 0
  requests : ℕ := 0
  payloadBytes : ℕ := 0
  timerBatches : ℕ := 0
  synchronousBatches : ℕ := 0
  singleRequestBatches : ℕ := 0
  maxRequestsPerBatch : ℕ := 0
  deriving DecidableEq, Repr

/-- A message that ended: how often the write lock had been taken by then, and by whom. -/
structure EndedMessage where
  turn : ℕ
  thread : ℕ
  entries : List WriteEntry
  deriving DecidableEq, Repr

/-- The sending half of `conn_t`. The call lock is taken before the write lock and for nothing
else, so the write lock stands for both. -/
structure WriteState where
  requestId : ℤ
  writeId : ℤ := 0
  writeLaneId : ℕ := 0
  writeOp : ℤ := 0
  writeQueue : List WriteEntry := []
  deferredWriteState : Option DeferredWriteState := none
  closed : Bool := false
  /-- The transport's scratch, and the DATA bytes it was handed. -/
  compressScratch : List UInt8 := []
  wire : List UInt8 := []
  /-- The thread that holds the write lock, and how often it has been taken. -/
  writer : Option ℕ := none
  turns : ℕ := 0
  /-- The messages whose end reported success. -/
  ended : List EndedMessage := []
  deriving DecidableEq, Repr

/-- `LUPINE_RPC_TERMINATE_LANE`, as an opcode on the wire. -/
def terminateLaneOp : ℤ := 0xFFFF

/-- The bytes of an `int`. -/
def intBytes (value : ℤ) : List UInt8 := leBytes 4 (value % 2 ^ 32).toNat

def plainEntry (bytes : List UInt8) : WriteEntry := ⟨bytes, 0⟩

namespace WriteState

def pending (st : WriteState) : List UInt8 :=
  match st.deferredWriteState with
  | none => []
  | some state => state.bytes

/-- `state->pending_requests`. -/
def pendingRequests (st : WriteState) : ℕ :=
  match st.deferredWriteState with
  | none => 0
  | some state => state.pendingRequests

def lock (st : WriteState) (thread : ℕ) : WriteState :=
  { st with writer := some thread, turns := st.turns + 1 }

def unlock (st : WriteState) : WriteState := { st with writer := none }

/-- `rpc_write_queue_reset`. -/
def resetQueue (st : WriteState) : WriteState :=
  { st with writeQueue := List.replicate 3 (plainEntry []) }

/-- The first three entries of the queue point at the id, the lane and the opcode. -/
def fillHeader (st : WriteState) : WriteState :=
  { st with
    writeQueue :=
      plainEntry (intBytes st.writeId) :: plainEntry (leBytes 8 st.writeLaneId) ::
        plainEntry (intBytes st.writeOp) :: st.writeQueue.drop 3 }

def endMessage (st : WriteState) (thread : ℕ) : WriteState :=
  { st with ended := st.ended ++ [⟨st.turns, thread, st.writeQueue⟩] }

end WriteState

/-! ## Writing

The functions follow the source. Where memory may run out, whether it did is an argument. -/

section Steps

variable (lz4 : Lz4)

/-- `rpc_http2_writev` on the connection. -/
def WriteState.writev (st : WriteState) (entries : List WriteEntry) (frames : List ℕ+) :
    Option WriteState :=
  (rpcHttp2Writev lz4 st.compressScratch entries frames).map fun s ↦
    { st with compressScratch := s.compressScratch, wire := st.wire ++ s.sent }

/-- What `rpc_flush_deferred_locked` leaves of the state. -/
def DeferredWriteState.flushed (state : DeferredWriteState) (timerFlush : Bool) :
    DeferredWriteState where
  bytes := []
  pendingRequests := 0
  batches := state.batches + 1
  requests := state.requests + state.pendingRequests
  payloadBytes := state.payloadBytes + state.bytes.length
  timerBatches := state.timerBatches + if timerFlush then 1 else 0
  synchronousBatches := state.synchronousBatches + if timerFlush then 0 else 1
  singleRequestBatches := state.singleRequestBatches + if state.pendingRequests = 1 then 1 else 0
  maxRequestsPerBatch := max state.maxRequestsPerBatch state.pendingRequests

/-- `rpc_flush_deferred_locked`. -/
def flushDeferred (st : WriteState) (timerFlush : Bool) (frames : List ℕ+) : Option WriteState :=
  match st.deferredWriteState with
  | none => some st
  | some state =>
    if state.bytes = [] then some st
    else
      (st.writev lz4 [plainEntry state.bytes] frames).map fun st' ↦
        { st' with deferredWriteState := some (state.flushed timerFlush) }

def sendQueue (st : WriteState) (thread : ℕ) (flushFrames frames : List ℕ+) :
    Option WriteState := do
  let st ← flushDeferred lz4 st false flushFrames
  let st ← st.writev lz4 st.writeQueue frames
  some (st.endMessage thread)

/-- `rpc_get_deferred_state_locked`; `created` says whether memory, condition variable and sender
thread could be had. -/
def getDeferredState (st : WriteState) (created : Bool) : Option DeferredWriteState :=
  match st.deferredWriteState with
  | some state => some state
  | none => if created then some {} else none

/-- The state with a copy of the queue's bytes behind those it has. -/
def DeferredWriteState.append (state : DeferredWriteState) (queue : List WriteEntry) :
    DeferredWriteState :=
  { state with
    bytes := state.bytes ++ queue.flatMap WriteEntry.bytes
    pendingRequests := state.pendingRequests + 1 }

/-- `rpc_write_end`. -/
def rpcWriteEnd (st : WriteState) (thread : ℕ) (flushFrames frames : List ℕ+) :
    Option WriteState :=
  if st.closed then some st.unlock
  else if 3 ≤ st.writeQueue.length then
    (sendQueue lz4 st.fillHeader thread flushFrames frames).map WriteState.unlock
  else some st.unlock

/-- `rpc_write_end_deferred`; `reserved` says whether the vector of pending bytes could grow. -/
def rpcWriteEndDeferred (st : WriteState) (thread : ℕ) (created reserved : Bool)
    (flushFrames frames : List ℕ+) : Option WriteState :=
  if st.closed then some st.unlock
  else if 3 ≤ st.writeQueue.length then
    let st := st.fillHeader
    let framed := st.writeQueue.any fun entry ↦ entry.framed ≠ 0
    match if framed then none else getDeferredState st created with
    | some state =>
      if reserved then
        some
          (({ st with deferredWriteState := some (state.append st.writeQueue) }).endMessage
            thread).unlock
      else some ({ st with deferredWriteState := some state }).unlock
    | none => (sendQueue lz4 st thread flushFrames frames).map WriteState.unlock
  else some st.unlock

/-- The message of `rpc_write_lane_termination`. Its header names the lane to end, which is not the
one of the thread. -/
def WriteState.fillTermination (st : WriteState) (lane : ℕ) : WriteState :=
  let id := intAdd st.requestId 2
  { st with
    requestId := id
    writeId := id
    writeOp := terminateLaneOp
    writeQueue :=
      [plainEntry (intBytes id), plainEntry (leBytes 8 lane),
        plainEntry (intBytes terminateLaneOp)] }

/-- `rpc_write_lane_termination`, once it has the lock. -/
def rpcWriteLaneTermination (st : WriteState) (thread lane : ℕ) (flushFrames frames : List ℕ+) :
    Option WriteState :=
  (sendQueue lz4 (st.fillTermination lane) thread flushFrames frames).map WriteState.unlock

/-- A step of a thread that writes, of the sender thread, or of whoever finds the connection
closed. -/
inductive WriteStep where
  /-- `rpc_write_start_request`. -/
  | startRequest (thread : ℕ) (op : ℤ) (lane : ℕ)
  /-- `rpc_write_start_response`. -/
  | startResponse (thread : ℕ) (readId : ℤ) (lane : ℕ)
  /-- `rpc_write`, `rpc_write_framed`, or one vector of `rpc_write_iovecs`. -/
  | write (thread : ℕ) (entry : WriteEntry)
  | writeEnd (thread : ℕ) (flushFrames frames : List ℕ+)
  | writeEndDeferred (thread : ℕ) (created reserved : Bool) (flushFrames frames : List ℕ+)
  | timer (frames : List ℕ+)
  | terminateLane (thread lane : ℕ) (flushFrames frames : List ℕ+)
  | close
  deriving DecidableEq, Repr

/-- What happens in a step. A message is started before the lock is had, and only then looks at
`closed`, so that its start may follow the close. -/
def writeStep (st : WriteState) : WriteStep → Option WriteState
  | .startRequest thread op lane =>
    if st.writer = none then
      let id := intAdd st.requestId 2
      some
        { (st.lock thread).resetQueue with
          requestId := id, writeId := id, writeOp := op, writeLaneId := lane }
    else none
  | .startResponse thread readId lane =>
    if st.writer = none then
      some { (st.lock thread).resetQueue with
        writeId := readId, writeOp := -1, writeLaneId := lane }
    else none
  | .write thread entry =>
    if st.writer = some thread then some { st with writeQueue := st.writeQueue ++ [entry] }
    else none
  | .writeEnd thread flushFrames frames =>
    if st.writer = some thread then rpcWriteEnd lz4 st thread flushFrames frames else none
  | .writeEndDeferred thread created reserved flushFrames frames =>
    if st.writer = some thread then
      rpcWriteEndDeferred lz4 st thread created reserved flushFrames frames
    else none
  | .timer frames =>
    if st.writer = none ∧ st.deferredWriteState.isSome then
      if st.closed then some st else flushDeferred lz4 st true frames
    else none
  | .terminateLane thread lane flushFrames frames =>
    if st.writer = none then
      rpcWriteLaneTermination lz4 (st.lock thread) thread lane flushFrames frames
    else none
  | .close => some { st with closed := true }

def writeMachine : Machine WriteState WriteStep where
  step := writeStep lz4

/-! ## The order of the messages

A copy of the bytes of a queue without framed entries is what its write would send, so it does not
matter for the wire when a message goes out, as long as it goes out in its place. -/

def encodeMessages (messages : List EndedMessage) : List UInt8 :=
  messages.flatMap fun message ↦ messageEncoding lz4 message.entries

/-- The messages that ended in the order of their turns, and all of them before the turn of the
writer, whose queue has its header. -/
structure InTurn (st : WriteState) : Prop where
  increasing : (st.ended.map EndedMessage.turn).Pairwise (· < ·)
  reached : ∀ message ∈ st.ended, message.turn ≤ st.turns
  earlier : st.writer.isSome → ∀ message ∈ st.ended, message.turn < st.turns
  started : st.writer.isSome → 3 ≤ st.writeQueue.length

/-- The messages that ended are those on the wire and, behind them, those that are pending. -/
structure Batched (st : WriteState) : Prop where
  split : ∃ sent waiting, st.ended = sent ++ waiting ∧ st.wire = encodeMessages lz4 sent ∧
    st.pending = encodeMessages lz4 waiting ∧ st.pendingRequests = waiting.length
  nonempty : ∀ message ∈ st.ended, messageEncoding lz4 message.entries ≠ []

variable {lz4} {st st' : WriteState} {entries : List WriteEntry} {frames flushFrames : List ℕ+}
  {thread : ℕ}

theorem encodeMessages_append (messages others : List EndedMessage) :
    encodeMessages lz4 (messages ++ others)
      = encodeMessages lz4 messages ++ encodeMessages lz4 others := List.flatMap_append

theorem encodeMessages_singleton (message : EndedMessage) :
    encodeMessages lz4 [message] = messageEncoding lz4 message.entries := by
  rw [encodeMessages, List.flatMap_singleton]

theorem messageEncoding_plain (bytes : List UInt8) :
    messageEncoding lz4 [plainEntry bytes] = bytes := by
  rw [messageEncoding, List.flatMap_singleton, WriteEntry.encoding, plainEntry]
  exact if_neg fun hframed ↦ hframed rfl

/-- A copy of the bytes of a queue without framed entries is what its write would send. -/
theorem messageEncoding_of_plain {queue : List WriteEntry}
    (h : ∀ entry ∈ queue, entry.framed = 0) :
    messageEncoding lz4 queue = queue.flatMap WriteEntry.bytes := by
  rw [messageEncoding]
  refine List.flatMap_congr fun entry hentry ↦ ?_
  rw [WriteEntry.encoding, if_neg (by rw [h entry hentry]; decide)]

theorem messageEncoding_header (value : ℤ) (queue : List WriteEntry) :
    messageEncoding lz4 (plainEntry (intBytes value) :: queue) ≠ [] := by
  intro hnil
  have hlength := congrArg List.length hnil
  rw [messageEncoding, List.flatMap_cons, List.length_append, WriteEntry.encoding, plainEntry,
    if_neg (fun hframed ↦ hframed rfl), intBytes, length_leBytes, List.length_nil] at hlength
  omega

/-! ### What the operations do

A flush moves the pending bytes to the wire, a message that is sent stands behind all others on the
wire, and one that is copied stands behind all others among the pending bytes. -/

theorem writev_spec (h : st.writev lz4 entries frames = some st') :
    ∃ scratch, st' = { st with
      compressScratch := scratch, wire := st.wire ++ messageEncoding lz4 entries } := by
  rw [WriteState.writev, Option.map_eq_some_iff] at h
  obtain ⟨s, hs, rfl⟩ := h
  exact ⟨s.compressScratch, by rw [(rpcHttp2Writev_spec lz4 _ entries frames).1 s hs]⟩

theorem flushDeferred_spec {timerFlush : Bool}
    (h : flushDeferred lz4 st timerFlush frames = some st') :
    ∃ scratch state, st' = { st with
        compressScratch := scratch, wire := st.wire ++ st.pending, deferredWriteState := state } ∧
      st'.pending = [] ∧ (st.pending = [] → st' = st) ∧
      (st.pending ≠ [] → st'.pendingRequests = 0) := by
  rw [flushDeferred] at h
  cases hstate : st.deferredWriteState with
  | none =>
    have hpending : st.pending = [] := by rw [WriteState.pending, hstate]
    rw [hstate] at h
    obtain rfl := Option.some.inj h
    refine ⟨st.compressScratch, st.deferredWriteState, ?_, hpending, fun _ ↦ rfl,
      fun hne ↦ absurd hpending hne⟩
    rw [hpending, List.append_nil]
  | some state =>
    have hpending : st.pending = state.bytes := by rw [WriteState.pending, hstate]
    rw [hstate] at h
    simp only at h
    split_ifs at h with hempty
    · obtain rfl := Option.some.inj h
      rw [hempty] at hpending
      refine ⟨st.compressScratch, st.deferredWriteState, ?_, hpending, fun _ ↦ rfl,
        fun hne ↦ absurd hpending hne⟩
      rw [hpending, List.append_nil]
    · obtain ⟨st₁, hwritev, rfl⟩ := Option.map_eq_some_iff.mp h
      obtain ⟨scratch, rfl⟩ := writev_spec hwritev
      refine ⟨scratch, some (state.flushed timerFlush), ?_, rfl,
        fun hnil ↦ absurd (hpending.symm.trans hnil) hempty, fun _ ↦ rfl⟩
      rw [messageEncoding_plain, hpending]

/-- Once the pending bytes are flushed, every message that ended is on the wire. -/
theorem Batched.wire_eq (h : Batched lz4 st) (hpending : st.pending = []) :
    st.wire = encodeMessages lz4 st.ended ∧ st.pendingRequests = 0 := by
  obtain ⟨sent, waiting, hended, hwire, hwaiting, hcount⟩ := h.split
  rcases waiting with - | ⟨message, waiting⟩
  · rw [List.append_nil] at hended
    exact ⟨by rw [hwire, hended], hcount⟩
  · -- a message that waits has bytes
    have hne := h.nonempty message (hended ▸ List.mem_append_right _ List.mem_cons_self)
    rw [hpending, encodeMessages, List.flatMap_cons] at hwaiting
    exact absurd (List.append_eq_nil_iff.mp hwaiting.symm).1 hne

theorem Batched.append_pending (h : Batched lz4 st) :
    st.wire ++ st.pending = encodeMessages lz4 st.ended := by
  obtain ⟨sent, waiting, hended, hwire, hwaiting, -⟩ := h.split
  rw [hended, encodeMessages_append, hwire, hwaiting]

theorem Batched.flush {timerFlush : Bool} (h : Batched lz4 st)
    (hflush : flushDeferred lz4 st timerFlush frames = some st') :
    Batched lz4 st' ∧ st'.pending = [] := by
  obtain ⟨scratch, state, heq, hpending, hsame, hcount⟩ := flushDeferred_spec hflush
  refine ⟨?_, hpending⟩
  by_cases hnil : st.pending = []
  · rw [hsame hnil]
    exact h
  · refine ⟨⟨st'.ended, [], (List.append_nil _).symm, ?_, hpending, hcount hnil⟩, ?_⟩
    · rw [heq]
      exact h.append_pending
    · rw [heq]
      exact h.nonempty

theorem sendQueue_spec (h : sendQueue lz4 st thread flushFrames frames = some st') :
    ∃ st₁ scratch, flushDeferred lz4 st false flushFrames = some st₁ ∧ st₁.ended = st.ended ∧
      st₁.turns = st.turns ∧ st₁.writer = st.writer ∧ st' = ({ st₁ with
        compressScratch := scratch
        wire := st₁.wire ++ messageEncoding lz4 st.writeQueue }).endMessage thread ∧
      st₁.writeQueue = st.writeQueue := by
  rw [sendQueue] at h
  obtain ⟨st₁, hflush, h⟩ := Option.bind_eq_some_iff.mp h
  obtain ⟨st₂, hwritev, h⟩ := Option.bind_eq_some_iff.mp h
  obtain rfl := Option.some.inj h
  obtain ⟨scratch', state, heq, -, -, -⟩ := flushDeferred_spec hflush
  obtain ⟨scratch, rfl⟩ := writev_spec hwritev
  have hqueue : st₁.writeQueue = st.writeQueue := by rw [heq]
  refine ⟨st₁, scratch, hflush, ?_, ?_, ?_, ?_, hqueue⟩
  · rw [heq]
  · rw [heq]
  · rw [heq]
  · rw [hqueue]

theorem Batched.send (h : Batched lz4 st) (hne : messageEncoding lz4 st.writeQueue ≠ [])
    (hsend : sendQueue lz4 st thread flushFrames frames = some st') :
    Batched lz4 st' ∧ st'.pending = [] ∧
      st'.ended = st.ended ++ [⟨st.turns, thread, st.writeQueue⟩] := by
  obtain ⟨st₁, scratch, hflush, hended, hturns, -, rfl, hqueue⟩ := sendQueue_spec hsend
  obtain ⟨hbatched, hpending⟩ := h.flush hflush
  obtain ⟨hwire, hcount⟩ := hbatched.wire_eq hpending
  have hended' : st₁.ended ++ [⟨st₁.turns, thread, st₁.writeQueue⟩]
      = st.ended ++ [⟨st.turns, thread, st.writeQueue⟩] := by rw [hended, hturns, hqueue]
  refine ⟨⟨⟨_, [], (List.append_nil _).symm, ?_, hpending, hcount⟩, ?_⟩, hpending, hended'⟩
  · rw [WriteState.endMessage, encodeMessages_append, encodeMessages_singleton, hqueue, hwire]
  · intro message hmessage
    rcases List.mem_append.mp hmessage with hold | hnew
    · exact hbatched.nonempty message hold
    · rw [List.mem_singleton.mp hnew, hqueue]
      exact hne

theorem getDeferredState_spec {state : DeferredWriteState} {created : Bool}
    (h : getDeferredState st created = some state) :
    state.bytes = st.pending ∧ state.pendingRequests = st.pendingRequests := by
  rw [getDeferredState] at h
  rw [WriteState.pending, WriteState.pendingRequests]
  cases hold : st.deferredWriteState with
  | none =>
    rw [hold] at h
    simp only at h
    split_ifs at h
    obtain rfl := Option.some.inj h
    exact ⟨rfl, rfl⟩
  | some old =>
    rw [hold] at h
    obtain rfl := Option.some.inj h
    exact ⟨rfl, rfl⟩

theorem Batched.append (h : Batched lz4 st) {state : DeferredWriteState} {created : Bool}
    (hstate : getDeferredState st created = some state)
    (hplain : ∀ entry ∈ st.writeQueue, entry.framed = 0)
    (hne : messageEncoding lz4 st.writeQueue ≠ []) :
    Batched lz4 (({ st with
      deferredWriteState := some (state.append st.writeQueue) }).endMessage thread) := by
  obtain ⟨sent, waiting, hended, hwire, hwaiting, hcount⟩ := h.split
  have hbytes := getDeferredState_spec hstate
  refine ⟨⟨sent, waiting ++ [⟨st.turns, thread, st.writeQueue⟩], ?_, hwire, ?_, ?_⟩, ?_⟩
  · rw [WriteState.endMessage, hended, List.append_assoc]
  · rw [encodeMessages_append, encodeMessages_singleton, messageEncoding_of_plain hplain,
      ← hwaiting, ← hbytes.1]
    rfl
  · rw [List.length_append, ← hcount, ← hbytes.2]
    rfl
  · intro message hmessage
    rcases List.mem_append.mp hmessage with hold | hnew
    · exact h.nonempty message hold
    · rw [List.mem_singleton.mp hnew]
      exact hne

theorem InTurn.unlock (h : InTurn st) (hended : st'.ended = st.ended)
    (hturns : st'.turns = st.turns) : InTurn st'.unlock :=
  ⟨hended ▸ h.increasing, fun m hm ↦ (h.reached m (hended ▸ hm)).trans hturns.ge,
    fun hsome ↦ absurd hsome (by simp [WriteState.unlock]),
    fun hsome ↦ absurd hsome (by simp [WriteState.unlock])⟩

theorem InTurn.endMessage (h : InTurn st) (hwriter : st.writer.isSome)
    (hended : st'.ended = st.ended ++ [⟨st.turns, thread, entries⟩])
    (hturns : st'.turns = st.turns) : InTurn st'.unlock := by
  refine ⟨?_, ?_, fun hsome ↦ absurd hsome (by simp [WriteState.unlock]),
    fun hsome ↦ absurd hsome (by simp [WriteState.unlock])⟩
  · show (st'.ended.map EndedMessage.turn).Pairwise (· < ·)
    rw [hended, List.map_append, List.pairwise_append]
    refine ⟨h.increasing, List.pairwise_singleton _ _, fun turn hturn turn' hturn' ↦ ?_⟩
    obtain ⟨message, hmessage, rfl⟩ := List.mem_map.mp hturn
    rw [List.mem_singleton.mp hturn']
    exact h.earlier hwriter message hmessage
  · intro message hmessage
    show message.turn ≤ st'.turns
    rw [hturns]
    replace hmessage : message ∈ st'.ended := hmessage
    rw [hended] at hmessage
    rcases List.mem_append.mp hmessage with hold | hnew
    · exact h.reached message hold
    · rw [List.mem_singleton.mp hnew]

theorem InTurn.lock (h : InTurn st) (hended : st'.ended = st.ended)
    (hturns : st'.turns = st.turns + 1) (hqueue : 3 ≤ st'.writeQueue.length) : InTurn st' := by
  refine ⟨hended ▸ h.increasing, fun m hm ↦ ?_, fun _ m hm ↦ ?_, fun _ ↦ hqueue⟩
  · have hle := h.reached m (hended ▸ hm)
    omega
  · have hle := h.reached m (hended ▸ hm)
    omega

/-! ### The invariant

A writer that gives the lock back has sent its message, or has copied it, or nothing was sent at
all. -/

variable (lz4) in
structure InOrder (st : WriteState) : Prop where
  inTurn : InTurn st
  batched : Batched lz4 st

theorem messageEncoding_fillHeader (st : WriteState) :
    messageEncoding lz4 st.fillHeader.writeQueue ≠ [] := messageEncoding_header _ _

theorem InOrder.fillHeader (h : InOrder lz4 st) : InOrder lz4 st.fillHeader := by
  refine ⟨⟨h.inTurn.increasing, h.inTurn.reached, h.inTurn.earlier, fun _ ↦ ?_⟩,
    ⟨h.batched.split, h.batched.nonempty⟩⟩
  rw [WriteState.fillHeader, List.length_cons, List.length_cons, List.length_cons]
  omega

theorem InOrder.unlock (h : InOrder lz4 st) : InOrder lz4 st.unlock :=
  ⟨h.inTurn.unlock rfl rfl, ⟨h.batched.split, h.batched.nonempty⟩⟩

theorem InOrder.send (h : InOrder lz4 st) (hwriter : st.writer.isSome)
    (hne : messageEncoding lz4 st.writeQueue ≠ [])
    (hsend : (sendQueue lz4 st thread flushFrames frames).map WriteState.unlock = some st') :
    InOrder lz4 st' ∧ st'.pending = [] ∧
      st'.ended = st.ended ++ [⟨st.turns, thread, st.writeQueue⟩] := by
  obtain ⟨st₂, hqueue, rfl⟩ := Option.map_eq_some_iff.mp hsend
  obtain ⟨hbatched, hpending, hended⟩ := h.batched.send hne hqueue
  have hturns : st₂.turns = st.turns := by
    obtain ⟨st₁, scratch, -, -, hturns, -, rfl, -⟩ := sendQueue_spec hqueue
    exact hturns
  exact ⟨⟨h.inTurn.endMessage hwriter hended hturns, ⟨hbatched.split, hbatched.nonempty⟩⟩,
    hpending, hended⟩

/-- **`rpc_write_end`.** On an open connection the message ends, and nothing is left pending. -/
theorem rpcWriteEnd_spec (h : InOrder lz4 st) (hwriter : st.writer.isSome)
    (hend : rpcWriteEnd lz4 st thread flushFrames frames = some st') :
    InOrder lz4 st' ∧ (st.closed = false → st'.pending = [] ∧
      st'.ended = st.ended ++ [⟨st.turns, thread, st.fillHeader.writeQueue⟩]) := by
  rw [rpcWriteEnd] at hend
  by_cases hclosed : st.closed
  · rw [if_pos hclosed] at hend
    obtain rfl := Option.some.inj hend
    exact ⟨h.unlock, fun hopen ↦ absurd hclosed (by simp [hopen])⟩
  · rw [if_neg hclosed, if_pos (h.inTurn.started hwriter)] at hend
    obtain ⟨horder, hrest⟩ :=
      h.fillHeader.send hwriter (messageEncoding_fillHeader st) hend
    exact ⟨horder, fun _ ↦ hrest⟩

/-- **`rpc_write_end_deferred`.** On an open connection the message ends, unless memory for its
copy runs out: then it is not sent at all. -/
theorem rpcWriteEndDeferred_spec (h : InOrder lz4 st) {created reserved : Bool}
    (hwriter : st.writer.isSome)
    (hend : rpcWriteEndDeferred lz4 st thread created reserved flushFrames frames = some st') :
    InOrder lz4 st' ∧ (st.closed = false → reserved →
      st'.ended = st.ended ++ [⟨st.turns, thread, st.fillHeader.writeQueue⟩]) := by
  rw [rpcWriteEndDeferred] at hend
  by_cases hclosed : st.closed
  · rw [if_pos hclosed] at hend
    obtain rfl := Option.some.inj hend
    exact ⟨h.unlock, fun hopen ↦ absurd hclosed (by simp [hopen])⟩
  · rw [if_neg hclosed, if_pos (h.inTurn.started hwriter)] at hend
    simp only at hend
    split at hend
    next state hstate =>
      by_cases hframed : st.fillHeader.writeQueue.any fun entry ↦ entry.framed ≠ 0
      · rw [if_pos hframed] at hstate
        exact absurd hstate (by simp)
      · rw [if_neg hframed] at hstate
        have hplain : ∀ entry ∈ st.fillHeader.writeQueue, entry.framed = 0 := by
          simpa using hframed
        by_cases hreserved : reserved
        · rw [if_pos hreserved] at hend
          obtain rfl := Option.some.inj hend
          have hbatched : Batched lz4 (WriteState.endMessage _ thread) :=
            h.fillHeader.batched.append hstate hplain (messageEncoding_fillHeader st)
          exact ⟨⟨h.fillHeader.inTurn.endMessage hwriter rfl rfl,
            ⟨hbatched.split, hbatched.nonempty⟩⟩, fun _ _ ↦ rfl⟩
        · -- the copy was not made, and the state has what it had
          rw [if_neg hreserved] at hend
          obtain rfl := Option.some.inj hend
          obtain ⟨hbytes, hcount⟩ := getDeferredState_spec hstate
          obtain ⟨sent, waiting, hended, hwire, hwaiting, hlength⟩ := h.batched.split
          refine ⟨⟨h.inTurn.unlock rfl rfl, ⟨⟨sent, waiting, hended, hwire, ?_, ?_⟩,
            h.batched.nonempty⟩⟩, fun _ hres ↦ absurd hres hreserved⟩
          · exact hbytes.trans hwaiting
          · exact hcount.trans hlength
    next hstate =>
      obtain ⟨horder, -, hended⟩ :=
        h.fillHeader.send hwriter (messageEncoding_fillHeader st) hend
      exact ⟨horder, fun _ _ ↦ hended⟩

/-- **One step.** -/
theorem inOrder_step (st : WriteState) (a : WriteStep) (st' : WriteState) (h : InOrder lz4 st)
    (hstep : writeStep lz4 st a = some st') : InOrder lz4 st' := by
  cases a with
  | startRequest thread op lane =>
    rw [writeStep] at hstep
    split_ifs at hstep
    obtain rfl := Option.some.inj hstep
    exact ⟨h.inTurn.lock rfl rfl le_rfl, ⟨h.batched.split, h.batched.nonempty⟩⟩
  | startResponse thread readId lane =>
    rw [writeStep] at hstep
    split_ifs at hstep
    obtain rfl := Option.some.inj hstep
    exact ⟨h.inTurn.lock rfl rfl le_rfl, ⟨h.batched.split, h.batched.nonempty⟩⟩
  | write thread entry =>
    rw [writeStep] at hstep
    split_ifs at hstep
    obtain rfl := Option.some.inj hstep
    refine ⟨⟨h.inTurn.increasing, h.inTurn.reached, h.inTurn.earlier, fun hwriter ↦ ?_⟩,
      ⟨h.batched.split, h.batched.nonempty⟩⟩
    rw [List.length_append]
    exact (h.inTurn.started hwriter).trans (Nat.le_add_right _ _)
  | writeEnd thread flushFrames frames =>
    rw [writeStep] at hstep
    split_ifs at hstep with hwriter
    exact (rpcWriteEnd_spec h (by rw [hwriter]; rfl) hstep).1
  | writeEndDeferred thread created reserved flushFrames frames =>
    rw [writeStep] at hstep
    split_ifs at hstep with hwriter
    exact (rpcWriteEndDeferred_spec h (by rw [hwriter]; rfl) hstep).1
  -- the timer leaves a closed connection alone, and otherwise sends what was deferred
  | timer frames =>
    rw [writeStep] at hstep
    split_ifs at hstep with hwriter hclosed
    · exact Option.some.inj hstep ▸ h
    · obtain ⟨scratch, state, heq, -, -, -⟩ := flushDeferred_spec hstep
      refine ⟨?_, (h.batched.flush hstep).1⟩
      rw [heq]
      exact ⟨h.inTurn.increasing, h.inTurn.reached, h.inTurn.earlier, h.inTurn.started⟩
  | terminateLane thread lane flushFrames frames =>
    rw [writeStep] at hstep
    split_ifs at hstep
    rw [rpcWriteLaneTermination] at hstep
    -- a termination is a message with nothing but a header
    have hstart : InOrder lz4 ((st.lock thread).fillTermination lane) :=
      ⟨h.inTurn.lock rfl rfl le_rfl, ⟨h.batched.split, h.batched.nonempty⟩⟩
    exact (hstart.send rfl (messageEncoding_header _ _) hstep).1
  | close =>
    obtain rfl := Option.some.inj hstep
    exact ⟨⟨h.inTurn.increasing, h.inTurn.reached, h.inTurn.earlier, h.inTurn.started⟩,
      ⟨h.batched.split, h.batched.nonempty⟩⟩

theorem inOrder_run {side : Side} {scratch : List UInt8} {steps : List WriteStep}
    (hrun : (writeMachine lz4).run { requestId := side.start, compressScratch := scratch } steps
      = some st) : InOrder lz4 st := by
  refine Machine.run_invariant _ inOrder_step ⟨⟨?_, ?_, ?_, ?_⟩, ⟨?_, ?_⟩⟩ hrun
  · exact List.Pairwise.nil
  · exact fun m hm ↦ absurd hm List.not_mem_nil
  · exact fun _ m hm ↦ absurd hm List.not_mem_nil
  · exact fun hwriter ↦ absurd hwriter (by simp)
  · exact ⟨[], [], rfl, rfl, rfl, rfl⟩
  · exact fun m hm ↦ absurd hm List.not_mem_nil

variable (lz4) in
/-- **The timer.** While nobody holds the lock the sender thread can flush, in frames of one byte if
need be, and what was pending is then on the wire. -/
theorem timer_flushes (hwriter : st.writer = none) (hstate : st.deferredWriteState.isSome)
    (hopen : st.closed = false) :
    ∃ st', writeStep lz4 st (.timer (List.replicate st.pending.length 1)) = some st' ∧
      st'.pending = [] ∧ st'.wire = st.wire ++ st.pending := by
  obtain ⟨state, hsome⟩ := Option.isSome_iff_exists.mp hstate
  have hbytes : st.pending = state.bytes := by rw [WriteState.pending, hsome]
  have hflush : ∃ st', flushDeferred lz4 st true (List.replicate st.pending.length 1)
      = some st' := by
    rw [flushDeferred, hsome]
    simp only
    split_ifs
    · exact ⟨st, rfl⟩
    · obtain ⟨s, hs⟩ := Option.isSome_iff_exists.mp <|
        (rpcHttp2Writev_spec lz4 st.compressScratch [plainEntry state.bytes]
          (List.replicate st.pending.length 1)).2
          (by rw [messageEncoding_plain, List.length_replicate, hbytes])
      rw [WriteState.writev, hs]
      exact ⟨_, rfl⟩
  obtain ⟨st', hflush⟩ := hflush
  refine ⟨st', ?_, ?_⟩
  · rw [writeStep, if_pos ⟨hwriter, hstate⟩, if_neg (by simp [hopen])]
    exact hflush
  · obtain ⟨scratch, state', heq, hpending, -, -⟩ := flushDeferred_spec hflush
    exact ⟨hpending, by rw [heq]⟩

/-- **Deferral keeps the order.** After every run, the bytes on the wire followed by the pending
bytes are the encodings of the messages that ended, in the order in which their writers took the
lock; the wire ends between two messages, and the count of pending requests is that of the others. A
message that is not deferred leaves nothing pending: all that ended is on the wire, itself last. -/
theorem deferredWrites_inOrder (lz4 : Lz4) (side : Side) {scratch : List UInt8}
    {steps : List WriteStep} {st : WriteState}
    (hrun : (writeMachine lz4).run { requestId := side.start, compressScratch := scratch } steps
      = some st) :
    st.wire ++ st.pending = encodeMessages lz4 st.ended ∧
    (st.ended.map EndedMessage.turn).Pairwise (· < ·) ∧
    (∃ sent waiting, st.ended = sent ++ waiting ∧ st.wire = encodeMessages lz4 sent ∧
      st.pendingRequests = waiting.length) ∧
    ∀ thread flushFrames frames st',
      writeStep lz4 st (.writeEnd thread flushFrames frames) = some st' → st.closed = false →
        st'.ended = st.ended ++ [⟨st.turns, thread, st.fillHeader.writeQueue⟩] ∧
        st'.wire = encodeMessages lz4 st'.ended ∧ st'.pending = [] := by
  have h := inOrder_run hrun
  obtain ⟨sent, waiting, hended, hwire, -, hcount⟩ := h.batched.split
  refine ⟨h.batched.append_pending, h.inTurn.increasing, ⟨sent, waiting, hended, hwire, hcount⟩, ?_⟩
  intro thread flushFrames frames st' hstep hopen
  rw [writeStep] at hstep
  split_ifs at hstep with hwriter
  obtain ⟨horder, hend⟩ := rpcWriteEnd_spec h (by rw [hwriter]; rfl) hstep
  obtain ⟨hpending, hended⟩ := hend hopen
  exact ⟨hended, (horder.batched.wire_eq hpending).1, hpending⟩

/-- A deferred request, one with a framed entry, a deferred request that the timer flushes, and a
lane termination. -/
theorem deferredWrites_inOrder_four :
    ∃ st, (writeMachine literalLz4).run { requestId := Side.client.start }
        [.startRequest 1 101 7, .write 1 ⟨[41], 0⟩, .writeEndDeferred 1 true true [] [],
          .startRequest 2 102 8, .write 2 ⟨[42, 43], 1⟩,
          .writeEndDeferred 2 true true [16, 1] [9, 7, 6], .startRequest 1 103 7,
          .writeEndDeferred 1 true true [] [], .timer [16],
          .terminateLane 2 8 [] [16]] = some st ∧
      st.wire ++ st.pending = encodeMessages literalLz4 st.ended ∧ st.ended.length = 4 := by
  have hrun : ((writeMachine literalLz4).run { requestId := Side.client.start }
      [.startRequest 1 101 7, .write 1 ⟨[41], 0⟩, .writeEndDeferred 1 true true [] [],
        .startRequest 2 102 8, .write 2 ⟨[42, 43], 1⟩,
        .writeEndDeferred 2 true true [16, 1] [9, 7, 6], .startRequest 1 103 7,
        .writeEndDeferred 1 true true [] [], .timer [16],
        .terminateLane 2 8 [] [16]]).map (fun st ↦ st.ended.length) = some 4 := by decide +kernel
  obtain ⟨st, hst, hlength⟩ := Option.map_eq_some_iff.mp hrun
  exact ⟨st, hst, (deferredWrites_inOrder literalLz4 .client hst).1, hlength⟩

end Steps

end Lupine
