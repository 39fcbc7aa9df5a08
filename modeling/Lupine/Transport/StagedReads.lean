import Lupine.Foundation.Passage
import Lupine.Transport.Framing
import Lupine.Transport.WindowHold

/-!
# Staged reads

What arrives while `rpc_http2_read` waits goes straight into the buffer of its caller. What is left
over is staged in `local_out`, and the next reads take it from there first. A read that fails has
stored what it got until then.

## Several network reads

How often the network is read, and what the reads bring, is not for the reader to say: a read is
given a list of network reads, and leaves those that it does not need. What is said of it holds for
every list.

## One invariant for a read

Between two network reads a reader has a front of what there is to hand on: what was staged when it
began, and behind that what the network has brought. `Receiving` is this statement inside a network
read, while the bytes of one chunk after the other arrive, and `Reading` is it between two of them.
A chunk goes to the reader as far as he wants it, and the rest waits behind what is staged.
-/

namespace Lupine

open Foundation

/-! ## The transport

A network read is given by the events that nghttp2 finds in it. What is staged is a list of buffers
that are read from the front. -/

/-- `h2_buffer`, with a byte left to read. -/
structure H2Buffer where
  data : List UInt8
  offset : ℕ := 0
  offset_lt : offset < data.length
  deriving DecidableEq

def H2Buffer.unread (buffer : H2Buffer) : List UInt8 := buffer.data.drop buffer.offset

/-- `rpc_http2_read_stats`. -/
structure H2ReadStats where
  directBytes : ℕ := 0
  stagedBytes : ℕ := 0
  stagedReadBytes : ℕ := 0
  stagedBuffers : ℕ := 0
  peakStagedBytes : ℕ := 0
  deriving DecidableEq, Repr

/-- The part of `h2_transport` that reads work on. -/
structure H2Inbound where
  localOut : List H2Buffer := []
  /-- Where in the buffer of the reader the next byte goes, if somebody reads. -/
  readDestination : Option ℕ := none
  readRemaining : ℕ := 0
  readStats : H2ReadStats := {}
  stagedBytes : ℕ := 0
  responseStatus : ℕ := 0
  transportFailed : Bool := false
  /-- The buffer of the reader, `data`. -/
  data : List UInt8 := []
  deriving DecidableEq

/-- What nghttp2 finds in the bytes of a network read. -/
inductive H2Event where
  /-- A chunk for `h2_on_data_chunk_recv_callback`. -/
  | chunk (bytes : List UInt8)
  /-- A `:status` for `h2_on_header_callback`, as a number. -/
  | status (code : ℕ)
  /-- `h2_on_stream_close_callback`. -/
  | closed
  /-- `nghttp2_session_mem_recv` fails. If it does so because a chunk cannot be credited, the bytes
  of the chunk are lost. -/
  | error (bytes : List UInt8)
  deriving DecidableEq, Repr

/-- A network read: the bytes it brings, and whether the session can be flushed afterwards. -/
inductive NetRead where
  | failed
  | arrived (events : List H2Event) (flushed : Bool)
  deriving DecidableEq, Repr

def H2Event.bytes : H2Event → List UInt8
  | chunk bytes => bytes
  | error bytes => bytes
  | _ => []

def NetRead.bytes : NetRead → List UInt8
  | failed => []
  | arrived events _ => events.flatMap H2Event.bytes

namespace H2Inbound

def unread (t : H2Inbound) : List UInt8 := t.localOut.flatMap H2Buffer.unread

/-- The direct part of `receive_bytes`. -/
def deliver (t : H2Inbound) (bytes : List UInt8) : H2Inbound :=
  match t.readDestination with
  | none => t
  | some destination => { t with
      data := store t.data destination bytes
      readDestination := some (destination + bytes.length)
      readRemaining := t.readRemaining - bytes.length
      readStats.directBytes := t.readStats.directBytes + bytes.length }

/-- The staged part of `receive_bytes`. -/
def stage (t : H2Inbound) (bytes : List UInt8) : H2Inbound :=
  if h : bytes = [] then t
  else { t with
    localOut := t.localOut ++ [{ data := bytes, offset_lt := List.length_pos_of_ne_nil h }]
    stagedBytes := t.stagedBytes + bytes.length
    readStats.stagedBytes := t.readStats.stagedBytes + bytes.length
    readStats.stagedBuffers := t.readStats.stagedBuffers + 1
    readStats.peakStagedBytes := max t.readStats.peakStagedBytes (t.stagedBytes + bytes.length) }

/-- `receive_bytes`. -/
def receiveBytes (t : H2Inbound) (bytes : List UInt8) : H2Inbound :=
  let direct := min bytes.length t.readRemaining
  (if direct ≠ 0 then t.deliver (bytes.take direct) else t).stage (bytes.drop direct)

/-- `nghttp2_session_mem_recv` on the bytes of a network read, and whether it consumes them all. -/
def memRecv (t : H2Inbound) : List H2Event → Bool × H2Inbound
  | [] => (true, t)
  | .chunk bytes :: events => (t.receiveBytes bytes).memRecv events
  | .status code :: events => { t with responseStatus := code }.memRecv events
  | .closed :: events => { t with transportFailed := true }.memRecv events
  | .error _ :: _ => (false, t)

/-- `h2_read_from_net`: what it returns, `direct_bytes`, and the transport afterwards. -/
def readFromNet (t : H2Inbound) (destination : Option ℕ) (capacity : ℕ) :
    NetRead → ℤ × ℕ × H2Inbound
  | .failed => (-1, 0, { t with transportFailed := true })
  | .arrived events flushed =>
    if t.readDestination.isSome then (-1, 0, { t with transportFailed := true })
    else
      let received := { t with readDestination := destination, readRemaining := capacity }.memRecv
        events
      let direct := capacity - received.2.readRemaining
      let t := { received.2 with readDestination := none, readRemaining := 0 }
      if received.1 && flushed then (0, direct, t)
      else (-1, direct, { t with transportFailed := true })

/-- A copy of `rpc_http2_read` out of `local_out`. -/
def copyOut (t : H2Inbound) (copied : ℕ) (bytes : List UInt8) : H2Inbound :=
  { t with
    data := store t.data copied bytes
    readStats.stagedReadBytes := t.readStats.stagedReadBytes + bytes.length
    stagedBytes := t.stagedBytes - bytes.length }

/-- The inner loop of `rpc_http2_read` over the buffers of `local_out`, and `copied` behind it. -/
def copyStaged (size : ℕ) (t : H2Inbound) (copied : ℕ) : List H2Buffer → ℕ × H2Inbound
  | [] => (copied, { t with localOut := [] })
  | front :: localOut =>
    if copied < size then
      let chunk := min front.unread.length (size - copied)
      let t := t.copyOut copied (front.unread.take chunk)
      if h : front.offset + chunk < front.data.length then
        -- the buffer has more than the read wants, so the read is full
        (copied + chunk, { t with localOut := ⟨front.data, front.offset + chunk, h⟩ :: localOut })
      else t.copyStaged size (copied + chunk) localOut
    else (copied, { t with localOut := front :: localOut })

end H2Inbound

/-- How a read ends: its result, `copied`, the transport, and the network reads it did not need. -/
structure StagedOutcome where
  result : ℤ
  copied : ℕ
  transport : H2Inbound
  rest : List NetRead

/-- The loop of `rpc_http2_read`; `none` is that it waits for the network. -/
def rpcHttp2ReadLoop (size : ℕ) (t : H2Inbound) (copied : ℕ) (nets : List NetRead) :
    Option StagedOutcome :=
  if copied < size then
    let staged := t.copyStaged size copied t.localOut
    let copied := staged.1
    let t := staged.2
    if copied = size then some ⟨staticCastInt size, copied, t, nets⟩
    else if t.responseStatus ≠ 0 ∧ t.responseStatus ≠ 200 then some ⟨-1, copied, t, nets⟩
    else
      match nets with
      | [] => none
      | net :: nets =>
        let read := t.readFromNet (some copied) (size - copied) net
        let copied := copied + read.2.1
        if read.1 < 0 then some ⟨-1, copied, read.2.2, nets⟩
        else rpcHttp2ReadLoop size read.2.2 copied nets
  else some ⟨staticCastInt size, copied, t, nets⟩
termination_by structural nets

/-- `rpc_http2_read`. -/
def rpcHttp2Read (t : H2Inbound) (data : List UInt8) (size : ℕ) (nets : List NetRead) :
    Option StagedOutcome :=
  rpcHttp2ReadLoop size { t with data := data } 0 nets

/-! ## Bytes that arrive

The reader wants a number of bytes more. As long as that is not zero nothing is staged, so the order
is kept. -/

section Arrival

variable {t : H2Inbound} {before stored : List UInt8} {size : ℕ}

/-- A reader that waits for the network, if bytes remain to be delivered, or bytes that nobody
waits for. -/
structure Receiving (before stored : List UInt8) (size : ℕ) (t : H2Inbound) : Prop where
  filled : Filled before stored t.data
  stagedBytes_eq : t.stagedBytes = t.unread.length
  remaining_eq : stored.length + t.readRemaining = size
  waiting : t.readRemaining ≠ 0 → t.readDestination = some stored.length ∧ t.localOut = []

theorem unread_of_localOut (h : t.localOut = []) : t.unread = [] := by
  rw [H2Inbound.unread, h, List.flatMap_nil]

theorem unread_stage (t : H2Inbound) (bytes : List UInt8) :
    (t.stage bytes).unread = t.unread ++ bytes := by
  rw [H2Inbound.stage]
  split_ifs with hnil
  · rw [hnil, List.append_nil]
  · rw [H2Inbound.unread, List.flatMap_append, List.flatMap_singleton]
    rfl

theorem Receiving.stage (h : Receiving before stored size t) {bytes : List UInt8}
    (hbytes : bytes ≠ [] → t.readRemaining = 0) :
    Receiving before stored size (t.stage bytes) := by
  have hcount : (t.stage bytes).stagedBytes = (t.stage bytes).unread.length := by
    rw [unread_stage, List.length_append, ← h.stagedBytes_eq, H2Inbound.stage]
    split_ifs with hnil
    · rw [hnil]
      rfl
    · rfl
  rcases eq_or_ne bytes [] with rfl | hne
  · exact h
  · rw [H2Inbound.stage, dif_neg hne] at hcount ⊢
    exact ⟨h.filled, hcount, h.remaining_eq, fun hpos ↦ absurd (hbytes hne) hpos⟩

/-- What is delivered lies behind what the reader has. -/
theorem Receiving.deliver (h : Receiving before stored size t) (hpos : t.readRemaining ≠ 0)
    {bytes : List UInt8} (hle : bytes.length ≤ t.readRemaining) :
    Receiving before (stored ++ bytes) size (t.deliver bytes) ∧ (t.deliver bytes).localOut = [] ∧
      (t.deliver bytes).readRemaining = t.readRemaining - bytes.length := by
  obtain ⟨hdestination, hnone⟩ := h.waiting hpos
  have hunread := unread_of_localOut hnone
  have hcount := h.stagedBytes_eq
  have hsize := h.remaining_eq
  rw [H2Inbound.deliver, hdestination]
  refine ⟨⟨h.filled.store bytes, hcount, ?_, fun _ ↦ ⟨?_, hnone⟩⟩, hnone, rfl⟩
  · show (stored ++ bytes).length + (t.readRemaining - bytes.length) = size
    rw [List.length_append]
    omega
  · rw [List.length_append]

/-- **A chunk** goes to the reader as far as he wants it, and the rest waits. -/
theorem Receiving.receiveBytes (h : Receiving before stored size t) (bytes : List UInt8) :
    ∃ direct, Passes t.unread bytes direct (t.receiveBytes bytes).unread ∧
      Receiving before (stored ++ direct) size (t.receiveBytes bytes) := by
  rw [H2Inbound.receiveBytes]
  by_cases hzero : min bytes.length t.readRemaining = 0
  · -- there is nothing, or nobody wants it
    simp only [hzero, ne_eq, not_true_eq_false, if_false, List.drop_zero]
    refine ⟨[], ?_, ?_⟩
    · rw [unread_stage]
      exact Passes.arrive _ _
    · rw [List.append_nil]
      refine h.stage fun hne ↦ ?_
      have hlength := List.length_pos_of_ne_nil hne
      omega
  · simp only [ne_eq, hzero, not_false_eq_true, if_true]
    have hlength : (bytes.take (min bytes.length t.readRemaining)).length =
        min bytes.length t.readRemaining := by
      rw [List.length_take]
      exact Nat.min_eq_left (Nat.min_le_left _ _)
    obtain ⟨hreceiving, hnone, hremaining⟩ := h.deliver (by omega) (by omega :
      (bytes.take (min bytes.length t.readRemaining)).length ≤ t.readRemaining)
    refine ⟨bytes.take (min bytes.length t.readRemaining), ?_, hreceiving.stage fun hrest ↦ ?_⟩
    · rw [unread_stage, unread_of_localOut hnone, List.nil_append,
        unread_of_localOut (h.waiting (by omega)).2]
      exact Passes.straight _ _
    · -- bytes are left over only if the reader has got all that he wants
      rw [ne_eq, List.drop_eq_nil_iff] at hrest
      omega

theorem Receiving.memRecv (events : List H2Event) (h : Receiving before stored size t) :
    ∃ got direct, Passes t.unread got direct (t.memRecv events).2.unread ∧
      Receiving before (stored ++ direct) size (t.memRecv events).2 ∧
      got <+: events.flatMap H2Event.bytes ∧
      ((t.memRecv events).1 → got = events.flatMap H2Event.bytes) := by
  induction events generalizing t stored with
  | nil =>
    refine ⟨[], [], Passes.refl _, ?_, List.prefix_refl _, fun _ ↦ rfl⟩
    rw [List.append_nil]
    exact h
  | cons event events ih =>
    rw [List.flatMap_cons]
    cases event with
    | chunk bytes =>
      obtain ⟨x, hpass, hreceiving⟩ := h.receiveBytes bytes
      obtain ⟨got, y, hrest, hend, hprefix, hall⟩ := ih hreceiving
      rw [List.append_assoc] at hend
      refine ⟨bytes ++ got, x ++ y, hpass.trans hrest, hend, ?_, fun hok ↦ ?_⟩
      · exact (List.prefix_append_right_inj bytes).mpr hprefix
      · rw [hall hok]
        rfl
    | status code =>
      have hsame : Receiving before stored size { t with responseStatus := code } :=
        ⟨h.filled, h.stagedBytes_eq, h.remaining_eq, h.waiting⟩
      exact ih hsame
    | closed =>
      have hsame : Receiving before stored size { t with transportFailed := true } :=
        ⟨h.filled, h.stagedBytes_eq, h.remaining_eq, h.waiting⟩
      exact ih hsame
    | error bytes =>
      refine ⟨[], [], Passes.refl _, ?_, List.nil_prefix, fun hok ↦ absurd hok Bool.false_ne_true⟩
      rw [List.append_nil]
      exact h

end Arrival

/-! ## A read

A round of the loop uses up what was staged and then reads the network, unless the read is full. A
read that fails has stored a front all the same. -/

section Read

variable {t : H2Inbound} {before stored : List UInt8} {size : ℕ}

/-- A reader between its network reads, or no reader. -/
structure Reading (before stored : List UInt8) (t : H2Inbound) : Prop where
  filled : Filled before stored t.data
  stagedBytes_eq : t.stagedBytes = t.unread.length
  idle : t.readDestination = none

/-- **A network read** hands on what it brings, up to an error, and all of it unless it fails. -/
theorem Reading.readFromNet (h : Reading before stored t) {destination : Option ℕ} {capacity : ℕ}
    (hwaiting : capacity ≠ 0 → destination = some stored.length ∧ t.localOut = [])
    (net : NetRead) :
    ∃ got direct, Passes t.unread got direct (t.readFromNet destination capacity net).2.2.unread ∧
      Reading before (stored ++ direct) (t.readFromNet destination capacity net).2.2 ∧
      direct.length = (t.readFromNet destination capacity net).2.1 ∧ direct.length ≤ capacity ∧
      got <+: net.bytes ∧
      ((t.readFromNet destination capacity net).1 = 0 ∧ got = net.bytes ∨
        (t.readFromNet destination capacity net).1 = -1) := by
  cases net with
  | failed =>
    refine ⟨[], [], Passes.refl _, ?_, rfl, Nat.zero_le _, List.nil_prefix, Or.inr rfl⟩
    rw [List.append_nil]
    exact ⟨h.filled, h.stagedBytes_eq, h.idle⟩
  | arrived events flushed =>
    have hstart : Receiving before stored (stored.length + capacity)
        { t with readDestination := destination, readRemaining := capacity } :=
      ⟨h.filled, h.stagedBytes_eq, rfl, hwaiting⟩
    obtain ⟨got, direct, hpass, hend, hprefix, hall⟩ := hstart.memRecv events
    have hremaining := hend.remaining_eq
    rw [List.length_append] at hremaining
    rw [H2Inbound.readFromNet, h.idle, if_neg (by decide)]
    dsimp only
    split_ifs with hok
    · rw [Bool.and_eq_true] at hok
      refine ⟨got, direct, hpass, ⟨hend.filled, hend.stagedBytes_eq, rfl⟩, ?_, by omega, hprefix,
        Or.inl ⟨rfl, hall hok.1⟩⟩
      dsimp only
      omega
    · refine ⟨got, direct, hpass, ⟨hend.filled, hend.stagedBytes_eq, rfl⟩, ?_, by omega, hprefix,
        Or.inr rfl⟩
      dsimp only
      omega

theorem length_unread (buffer : H2Buffer) :
    buffer.unread.length = buffer.data.length - buffer.offset := List.length_drop

theorem unread_advance (front : H2Buffer) {n : ℕ} (h : front.offset + n < front.data.length) :
    (⟨front.data, front.offset + n, h⟩ : H2Buffer).unread = front.unread.drop n := by
  rw [H2Buffer.unread, H2Buffer.unread, List.drop_drop]

theorem Reading.copyOut {localOut localOut' : List H2Buffer} {bytes : List UInt8}
    (h : Reading before stored { t with localOut := localOut })
    (hbytes : localOut.flatMap H2Buffer.unread = bytes ++ localOut'.flatMap H2Buffer.unread) :
    Reading before (stored ++ bytes)
      { t.copyOut stored.length bytes with localOut := localOut' } := by
  refine ⟨h.filled.store bytes, ?_, h.idle⟩
  have hcount : t.stagedBytes = (localOut.flatMap H2Buffer.unread).length := h.stagedBytes_eq
  rw [hbytes, List.length_append] at hcount
  show t.stagedBytes - bytes.length = (localOut'.flatMap H2Buffer.unread).length
  omega

/-- **What was staged** is read first, and something is left of it only if the read is full. -/
theorem Reading.copyStaged (localOut : List H2Buffer) (hsize : stored.length ≤ size)
    (h : Reading before stored { t with localOut := localOut }) :
    ∃ copied, Passes (localOut.flatMap H2Buffer.unread) [] copied
        (t.copyStaged size stored.length localOut).2.unread ∧
      Reading before (stored ++ copied) (t.copyStaged size stored.length localOut).2 ∧
      (t.copyStaged size stored.length localOut).1 = (stored ++ copied).length ∧
      (stored ++ copied).length ≤ size ∧
      ((stored ++ copied).length ≠ size →
        (t.copyStaged size stored.length localOut).2.localOut = []) := by
  induction localOut generalizing t stored with
  | nil =>
    refine ⟨[], Passes.refl _, ?_, ?_, ?_, fun _ ↦ rfl⟩
    all_goals rw [List.append_nil]
    · exact h
    · rfl
    · exact hsize
  | cons front localOut ih =>
    rw [H2Inbound.copyStaged]
    by_cases hmore : stored.length < size
    · have hlength := length_unread front
      have htake : (front.unread.take (min front.unread.length (size - stored.length))).length =
          min front.unread.length (size - stored.length) := by
        rw [List.length_take]
        exact Nat.min_eq_left (Nat.min_le_left _ _)
      rw [if_pos hmore]
      dsimp only
      split_ifs with hrest
      · -- the read is full
        have hsplit : (front :: localOut).flatMap H2Buffer.unread =
            front.unread.take (min front.unread.length (size - stored.length)) ++
              (⟨front.data, _, hrest⟩ :: localOut).flatMap H2Buffer.unread := by
          rw [List.flatMap_cons, List.flatMap_cons, unread_advance, ← List.append_assoc,
            List.take_append_drop]
        refine ⟨_, ?_, h.copyOut hsplit, ?_, ?_, fun hne ↦ absurd ?_ hne⟩
        · rw [hsplit]
          exact Passes.leave _ _
        all_goals rw [List.length_append, htake]
        all_goals omega
      · have hwhole : min front.unread.length (size - stored.length) = front.unread.length := by
          omega
        rw [hwhole, List.take_length, ← List.length_append]
        have hnext : Reading before (stored ++ front.unread)
            { t.copyOut stored.length front.unread with localOut := localOut } :=
          h.copyOut List.flatMap_cons
        obtain ⟨copied, hpass, hreading, hcopied, hle, hempty⟩ := ih (by
          rw [List.length_append]
          omega) hnext
        rw [List.append_assoc] at hreading hcopied hle hempty
        refine ⟨front.unread ++ copied, ?_, hreading, hcopied, hle, hempty⟩
        rw [List.flatMap_cons]
        exact (Passes.leave _ _).trans hpass
    · rw [if_neg hmore]
      refine ⟨[], Passes.refl _, ?_, ?_, ?_, fun hne ↦ absurd ?_ hne⟩
      all_goals rw [List.append_nil]
      · exact h
      · exact hsize
      · omega

theorem not_nonneg_neg_one : ¬(0 : ℤ) ≤ -1 := by decide

/-- How a round of the loop ends: the read is over without the network, or what was staged is used
up and the network is read. -/
theorem rpcHttp2ReadLoop_cases {nets : List NetRead} (h : Reading before stored t)
    (hsize : stored.length ≤ size) {outcome : StagedOutcome}
    (hrun : rpcHttp2ReadLoop size t stored.length nets = some outcome) :
    ∃ copied t', Passes t.unread [] copied t'.unread ∧ Reading before (stored ++ copied) t' ∧
      (outcome.rest = nets ∧ outcome.transport = t' ∧ outcome.copied = (stored ++ copied).length ∧
          (0 ≤ outcome.result → outcome.copied = size ∧ outcome.result = staticCastInt size) ∨
        ∃ net rest, nets = net :: rest ∧ t'.localOut = [] ∧ (stored ++ copied).length ≤ size ∧
          let capacity := size - (stored ++ copied).length
          let read := t'.readFromNet (some (stored ++ copied).length) capacity net
          (if read.1 < 0 then some ⟨-1, (stored ++ copied).length + read.2.1, read.2.2, rest⟩
            else rpcHttp2ReadLoop size read.2.2 ((stored ++ copied).length + read.2.1) rest) =
              some outcome) := by
  rw [rpcHttp2ReadLoop.eq_def] at hrun
  split_ifs at hrun with hmore
  · obtain ⟨copied, hpass, hreading, hcopied, hle, hempty⟩ := h.copyStaged t.localOut hsize
    dsimp only at hrun
    rw [hcopied] at hrun
    refine ⟨copied, _, hpass, hreading, ?_⟩
    split_ifs at hrun with hfull hstatus
    · obtain rfl := Option.some.inj hrun
      dsimp only
      exact Or.inl ⟨rfl, rfl, rfl, fun _ ↦ ⟨hfull, rfl⟩⟩
    · obtain rfl := Option.some.inj hrun
      exact Or.inl ⟨rfl, rfl, rfl, fun hnonneg ↦ absurd hnonneg not_nonneg_neg_one⟩
    · cases nets with
      | nil => exact absurd hrun.symm (Option.some_ne_none outcome)
      | cons net rest => exact Or.inr ⟨net, rest, rfl, hempty hfull, hle, hrun⟩
  · obtain rfl := Option.some.inj hrun
    dsimp only
    refine ⟨[], t, Passes.refl _, ?_, Or.inl ⟨rfl, rfl, ?_, fun _ ↦ ⟨?_, rfl⟩⟩⟩
    · rw [List.append_nil]
      exact h
    · rw [List.append_nil]
    · exact le_antisymm hsize (Nat.le_of_not_lt hmore)

/-- **A read** hands on what was staged and what the network brings, in this order, and stores it in
the buffer from the front. Unless it fails, it stores as much as is wanted, and all that was brought
is handed on. -/
theorem rpcHttp2ReadLoop_spec (nets : List NetRead) (h : Reading before stored t)
    (hsize : stored.length ≤ size) {outcome : StagedOutcome}
    (hrun : rpcHttp2ReadLoop size t stored.length nets = some outcome) :
    ∃ made got out, nets = made ++ outcome.rest ∧
      Passes t.unread got out outcome.transport.unread ∧
      Reading before (stored ++ out) outcome.transport ∧
      outcome.copied = (stored ++ out).length ∧
      got <+: made.flatMap NetRead.bytes ∧
      (0 ≤ outcome.result → got = made.flatMap NetRead.bytes ∧ outcome.copied = size ∧
        outcome.result = staticCastInt size) := by
  -- the induction is on the network reads; each round first takes what is staged
  induction nets generalizing t stored with
  | nil =>
    obtain ⟨copied, t', hpass, hreading, ⟨hrest, rfl, hcopied, hresult⟩ | ⟨_, _, hnets, -⟩⟩ :=
      rpcHttp2ReadLoop_cases h hsize hrun
    · exact ⟨[], [], copied, hrest.symm, hpass, hreading, hcopied, List.prefix_refl _,
        fun hnonneg ↦ ⟨rfl, hresult hnonneg⟩⟩
    · exact absurd hnets.symm (List.cons_ne_nil _ _)
  | cons net nets ih =>
    obtain ⟨copied, t', hpass, hreading, ⟨hrest, rfl, hcopied, hresult⟩ |
      ⟨_, _, hnets, hempty, hle, hrun⟩⟩ := rpcHttp2ReadLoop_cases h hsize hrun
    · exact ⟨[], [], copied, hrest.symm, hpass, hreading, hcopied, List.prefix_refl _,
        fun hnonneg ↦ ⟨rfl, hresult hnonneg⟩⟩
    · obtain ⟨rfl, rfl⟩ := List.cons.inj hnets
      dsimp only at hrun
      -- a round goes on only when nothing is staged, so a direct read keeps the order
      have hwaiting : size - (stored ++ copied).length ≠ 0 →
          some (stored ++ copied).length = some (stored ++ copied).length ∧ t'.localOut = [] :=
        fun _ ↦ ⟨rfl, hempty⟩
      obtain ⟨got, direct, hnet, hreading', hdirect, hcapacity, hprefix, hresult⟩ :=
        hreading.readFromNet hwaiting net
      rw [← hdirect, ← List.length_append, List.append_assoc] at hrun
      rw [List.append_assoc] at hreading'
      obtain ⟨hzero, rfl⟩ | hneg := hresult
      · rw [if_neg (by rw [hzero]; decide)] at hrun
        obtain ⟨made, got, out, rfl, hpass', hend, hcopied, hprefix', hall⟩ :=
          ih hreading' (by rw [← List.append_assoc, List.length_append]; omega) hrun
        rw [List.append_assoc, List.append_assoc] at hend hcopied
        refine ⟨net :: made, _, copied ++ (direct ++ out), rfl, hpass.trans (hnet.trans hpass'),
          hend, hcopied, ?_, fun hnonneg ↦ ?_⟩
        · rw [List.flatMap_cons]
          exact (List.prefix_append_right_inj net.bytes).mpr hprefix'
        · obtain ⟨rfl, hfull⟩ := hall hnonneg
          exact ⟨rfl, hfull⟩
      -- the read failed after it had copied; what it copied was received, in order
      · rw [if_pos (by rw [hneg]; decide)] at hrun
        obtain rfl := Option.some.inj hrun
        refine ⟨[net], got, copied ++ direct, rfl, hpass.trans hnet, hreading', rfl, ?_,
          fun hnonneg ↦ absurd hnonneg not_nonneg_neg_one⟩
        rw [List.flatMap_singleton]
        exact hprefix

theorem rpcHttp2Read_spec (hidle : t.readDestination = none)
    (hcount : t.stagedBytes = t.unread.length) (data : List UInt8) {nets : List NetRead}
    {outcome : StagedOutcome} (hrun : rpcHttp2Read t data size nets = some outcome) :
    ∃ made got out, nets = made ++ outcome.rest ∧
      Passes t.unread got out outcome.transport.unread ∧ Reading data out outcome.transport ∧
      outcome.copied = out.length ∧ got <+: made.flatMap NetRead.bytes ∧
      (0 ≤ outcome.result → got = made.flatMap NetRead.bytes ∧ outcome.copied = size ∧
        outcome.result = staticCastInt size) := by
  have hstart : Reading data [] { t with data := data } := ⟨filled_nil data, hcount, hidle⟩
  exact rpcHttp2ReadLoop_spec nets hstart (Nat.zero_le size) hrun

/-- **Refinement.** A read that succeeds is a read off the front of what was staged and what is
brought. -/
theorem rpcRead_of_rpcHttp2Read (hidle : t.readDestination = none)
    (hcount : t.stagedBytes = t.unread.length) {data : List UInt8} {nets : List NetRead}
    {outcome : StagedOutcome} (hrun : rpcHttp2Read t data size nets = some outcome)
    (hnonneg : 0 ≤ outcome.result) :
    ∃ made, nets = made ++ outcome.rest ∧
      rpcRead (t.unread ++ made.flatMap NetRead.bytes) size =
        some ⟨outcome.result, outcome.transport.data.take size, outcome.transport.unread⟩ := by
  obtain ⟨made, _, out, hnets, hpass, hreading, hcopied, -, hall⟩ :=
    rpcHttp2Read_spec hidle hcount data hrun
  obtain ⟨rfl, hsize, hresult⟩ := hall hnonneg
  obtain rfl : out.length = size := hcopied.symm.trans hsize
  refine ⟨made, hnets, ?_⟩
  rw [hpass, rpcRead_append, hresult, hreading.filled.take_eq]

end Read

/-! ## Reads that succeed

An event that stops no read, and a network read that does not fail, leave the response as it was or
bring one that accepts the request. The read then goes on until it has enough. -/

section Enough

variable {t : H2Inbound} {before stored : List UInt8} {size : ℕ}

/-- The response is not there yet, or it is one that accepts the request. -/
def H2Inbound.Accepted (t : H2Inbound) : Prop := t.responseStatus = 0 ∨ t.responseStatus = 200

/-- An event that stops no read. -/
def H2Event.Clean : H2Event → Prop
  | chunk _ => True
  | status code => code = 200
  | closed => True
  | error _ => False

/-- A network read that does not fail. -/
def NetRead.Clean : NetRead → Prop
  | failed => False
  | arrived events flushed => (∀ event ∈ events, event.Clean) ∧ flushed

theorem responseStatus_receiveBytes (t : H2Inbound) (bytes : List UInt8) :
    (t.receiveBytes bytes).responseStatus = t.responseStatus := by
  have hstage : ∀ (t : H2Inbound) (bytes : List UInt8),
      (t.stage bytes).responseStatus = t.responseStatus := by
    intro t bytes
    rw [H2Inbound.stage]
    split_ifs <;> rfl
  rw [H2Inbound.receiveBytes, hstage]
  split_ifs
  · rw [H2Inbound.deliver]
    cases t.readDestination <;> rfl
  · rfl

theorem responseStatus_copyStaged (copied : ℕ) (localOut : List H2Buffer) :
    (t.copyStaged size copied localOut).2.responseStatus = t.responseStatus := by
  induction localOut generalizing t copied with
  | nil => rfl
  | cons front localOut ih =>
    rw [H2Inbound.copyStaged]
    dsimp only
    split_ifs
    · rfl
    · exact ih _
    · rfl

theorem memRecv_of_clean {events : List H2Event} (h : ∀ event ∈ events, event.Clean)
    (haccepted : t.Accepted) : (t.memRecv events).1 ∧ (t.memRecv events).2.Accepted := by
  induction events generalizing t with
  | nil => exact ⟨rfl, haccepted⟩
  | cons event events ih =>
    obtain ⟨hevent, hevents⟩ := List.forall_mem_cons.mp h
    cases event with
    | chunk bytes =>
      refine ih hevents ?_
      rw [H2Inbound.Accepted, responseStatus_receiveBytes]
      exact haccepted
    | status code => exact ih hevents (Or.inr hevent)
    | closed => exact ih hevents haccepted
    | error bytes => exact hevent.elim

theorem readFromNet_of_clean {net : NetRead} (h : net.Clean) (hidle : t.readDestination = none)
    (haccepted : t.Accepted) (destination : Option ℕ) (capacity : ℕ) :
    (t.readFromNet destination capacity net).1 = 0 ∧
      (t.readFromNet destination capacity net).2.2.Accepted := by
  cases net with
  | failed => exact h.elim
  | arrived events flushed =>
    obtain ⟨hevents, hflushed⟩ := h
    have hstart : H2Inbound.Accepted
        { t with readDestination := destination, readRemaining := capacity } := haccepted
    obtain ⟨hall, hend⟩ := memRecv_of_clean hevents hstart
    rw [H2Inbound.readFromNet, hidle, if_neg (by decide)]
    dsimp only
    rw [if_pos (by rw [hall, hflushed]; rfl)]
    exact ⟨rfl, hend⟩

theorem rpcHttp2ReadLoop_round (h : Reading before stored t) (hsize : stored.length ≤ size)
    (haccepted : t.Accepted) :
    ∃ copied t', Passes t.unread [] copied t'.unread ∧ Reading before (stored ++ copied) t' ∧
      (stored ++ copied).length ≤ size ∧
      ((∀ nets, ∃ outcome, rpcHttp2ReadLoop size t stored.length nets = some outcome ∧
          outcome.result = staticCastInt size) ∨
        (stored ++ copied).length ≠ size ∧ t'.localOut = [] ∧ t'.Accepted ∧ ∀ net rest,
          let capacity := size - (stored ++ copied).length
          let read := t'.readFromNet (some (stored ++ copied).length) capacity net
          rpcHttp2ReadLoop size t stored.length (net :: rest) =
            if read.1 < 0 then some ⟨-1, (stored ++ copied).length + read.2.1, read.2.2, rest⟩
            else rpcHttp2ReadLoop size read.2.2 ((stored ++ copied).length + read.2.1) rest) := by
  by_cases hmore : stored.length < size
  · obtain ⟨copied, hpass, hreading, hcopied, hle, hempty⟩ := h.copyStaged t.localOut hsize
    refine ⟨copied, _, hpass, hreading, hle, ?_⟩
    have haccepted' : (t.copyStaged size stored.length t.localOut).2.Accepted := by
      rw [H2Inbound.Accepted, responseStatus_copyStaged]
      exact haccepted
    have hround := fun nets ↦ rpcHttp2ReadLoop.eq_def size t stored.length nets
    simp only [if_pos hmore, hcopied] at hround
    by_cases hfull : (stored ++ copied).length = size
    · refine Or.inl fun nets ↦ ⟨_, (hround nets).trans (if_pos hfull), ?_⟩
      dsimp only
    · refine Or.inr ⟨hfull, hempty hfull, haccepted', fun net rest ↦ ?_⟩
      have hstatus : ¬((t.copyStaged size stored.length t.localOut).2.responseStatus ≠ 0 ∧
          (t.copyStaged size stored.length t.localOut).2.responseStatus ≠ 200) :=
        fun hne ↦ haccepted'.elim hne.1 hne.2
      rw [hround, if_neg hfull, if_neg hstatus]
  · refine ⟨[], t, Passes.refl _, ?_, ?_, Or.inl fun nets ↦
      ⟨_, (rpcHttp2ReadLoop.eq_def ..).trans (if_neg hmore), ?_⟩⟩
    · rw [List.append_nil]
      exact h
    · rw [List.append_nil]
      exact hsize
    · dsimp only

/-- **Enough bytes.** A read returns its size once the network has brought enough. -/
theorem rpcHttp2ReadLoop_of_enough (nets : List NetRead) (h : Reading before stored t)
    (hsize : stored.length ≤ size) (hclean : ∀ net ∈ nets, net.Clean) (haccepted : t.Accepted)
    (henough : size ≤ (stored ++ t.unread ++ nets.flatMap NetRead.bytes).length) :
    ∃ outcome, rpcHttp2ReadLoop size t stored.length nets = some outcome ∧
      outcome.result = staticCastInt size := by
  induction nets generalizing t stored with
  | nil =>
    obtain ⟨copied, t', hpass, -, hle, hdone | ⟨hmore, hempty, -⟩⟩ :=
      rpcHttp2ReadLoop_round h hsize haccepted
    · exact hdone []
    · -- all that was staged is there, which is enough
      have hall : t.unread = copied := by
        have hsplit := hpass
        rwa [unread_of_localOut hempty, Passes, List.append_nil, List.append_nil] at hsplit
      rw [List.flatMap_nil, List.append_nil, hall] at henough
      exact absurd (le_antisymm hle henough) hmore
  | cons net nets ih =>
    obtain ⟨copied, t', hpass, hreading, hle, hdone | ⟨-, hempty, haccepted', hround⟩⟩ :=
      rpcHttp2ReadLoop_round h hsize haccepted
    · exact hdone _
    · obtain ⟨hnet, hnets⟩ := List.forall_mem_cons.mp hclean
      have hwaiting : size - (stored ++ copied).length ≠ 0 →
          some (stored ++ copied).length = some (stored ++ copied).length ∧ t'.localOut = [] :=
        fun _ ↦ ⟨rfl, hempty⟩
      obtain ⟨hzero, hnext⟩ := readFromNet_of_clean hnet hreading.idle haccepted'
        (some (stored ++ copied).length) (size - (stored ++ copied).length)
      obtain ⟨got, direct, hpass', hreading', hdirect, hcapacity, -, ⟨-, rfl⟩ | hneg⟩ :=
        hreading.readFromNet hwaiting net
      · have hboth := hpass.trans hpass'
        rw [Passes, List.nil_append] at hboth
        rw [hround, if_neg (by rw [hzero]; decide), ← hdirect, ← List.length_append]
        refine ih hreading' ?_ hnets hnext ?_
        · rw [List.length_append]
          omega
        · rw [List.append_assoc stored copied, List.append_assoc stored, ← hboth,
            ← List.append_assoc stored, List.append_assoc, ← List.flatMap_cons]
          exact henough
      · rw [hzero] at hneg
        exact absurd hneg (by decide)

theorem rpcHttp2Read_of_enough (hidle : t.readDestination = none)
    (hcount : t.stagedBytes = t.unread.length) (haccepted : t.Accepted) (data : List UInt8)
    {nets : List NetRead} (hclean : ∀ net ∈ nets, net.Clean)
    (henough : size ≤ (t.unread ++ nets.flatMap NetRead.bytes).length) :
    ∃ outcome, rpcHttp2Read t data size nets = some outcome ∧
      outcome.result = staticCastInt size := by
  have hstart : Reading data [] { t with data := data } := ⟨filled_nil data, hcount, hidle⟩
  exact rpcHttp2ReadLoop_of_enough nets hstart (Nat.zero_le size) hclean haccepted henough

end Enough

/-! ## The counts of the window

The flow-control window counts the same bytes, with nothing but lengths. Staged bytes that are taken
in two parts count as if they were taken at once. -/

section Window

variable {t : H2Inbound} {before stored : List UInt8} {size : ℕ}

/-- The transport as the flow-control window counts its bytes. -/
def H2Inbound.window (t : H2Inbound) : H2Window where
  readRemaining := t.readRemaining
  stagedBytes := t.stagedBytes
  readBytes := t.readStats.directBytes + t.readStats.stagedReadBytes

theorem window_stage (t : H2Inbound) (bytes : List UInt8) :
    (t.stage bytes).window =
      { t.window with stagedBytes := t.stagedBytes + bytes.length } := by
  rw [H2Inbound.stage]
  split_ifs with hnil
  · rw [hnil]
    rfl
  · rfl

theorem Receiving.window_receiveBytes (h : Receiving before stored size t) (bytes : List UInt8) :
    (t.receiveBytes bytes).window = t.window.receiveBytes bytes.length := by
  rw [H2Inbound.receiveBytes, window_stage, H2Window.receiveBytes, List.length_drop]
  by_cases hzero : min bytes.length t.readRemaining = 0
  · have hsame : t.window.readRemaining = t.readRemaining := rfl
    simp only [hsame, hzero, ne_eq, not_true_eq_false, if_false, Nat.sub_zero, Nat.add_zero]
    rfl
  · have hdestination := (h.waiting (by omega)).1
    have hlength : (bytes.take (min bytes.length t.readRemaining)).length =
        min bytes.length t.readRemaining := by
      rw [List.length_take]
      exact Nat.min_eq_left (Nat.min_le_left _ _)
    simp only [ne_eq, hzero, not_false_eq_true, if_true, H2Inbound.deliver, hdestination,
      H2Inbound.window, hlength, Nat.add_right_comm]

theorem readStaged_add (w : H2Window) {m : ℕ} (hm : m ≤ w.stagedBytes) (n : ℕ) :
    H2Window.readStaged
        { w with stagedBytes := w.stagedBytes - m, readBytes := w.readBytes + m } n =
      w.readStaged (m + n) := by
  have hmin : m + min n (w.stagedBytes - m) = min (m + n) w.stagedBytes := by omega
  simp only [H2Window.readStaged, Nat.sub_sub, Nat.add_assoc, hmin]

theorem readStaged_zero (w : H2Window) : w.readStaged 0 = w := by
  rw [H2Window.readStaged, Nat.zero_min]
  rfl

theorem window_copyOut (t : H2Inbound) (copied : ℕ) (bytes : List UInt8) :
    (t.copyOut copied bytes).window = { t.window with
      stagedBytes := t.window.stagedBytes - bytes.length
      readBytes := t.window.readBytes + bytes.length } := by
  simp only [H2Inbound.copyOut, H2Inbound.window, Nat.add_assoc]

theorem Reading.window_copyStaged (localOut : List H2Buffer) (hsize : stored.length ≤ size)
    (h : Reading before stored { t with localOut := localOut }) :
    (t.copyStaged size stored.length localOut).2.window =
      t.window.readStaged (size - stored.length) := by
  induction localOut generalizing t stored with
  | nil =>
    -- nothing is staged in the buffers, and the window says the same
    have hnone : t.window.stagedBytes = 0 := h.stagedBytes_eq
    have hnothing : min (size - stored.length) t.window.stagedBytes = 0 := by
      rw [hnone, Nat.min_zero]
    rw [H2Inbound.copyStaged, H2Window.readStaged, hnothing, Nat.sub_zero]
    rfl
  | cons front localOut ih =>
    have hlength := length_unread front
    have hcount : t.window.stagedBytes = ((front :: localOut).flatMap H2Buffer.unread).length :=
      h.stagedBytes_eq
    rw [List.flatMap_cons, List.length_append] at hcount
    rw [H2Inbound.copyStaged]
    by_cases hmore : stored.length < size
    · rw [if_pos hmore]
      dsimp only
      split_ifs with hrest
      · have htake : (front.unread.take (min front.unread.length (size - stored.length))).length =
            size - stored.length := by
          rw [List.length_take]
          omega
        have hcopy := window_copyOut t stored.length
          (front.unread.take (min front.unread.length (size - stored.length)))
        rw [htake] at hcopy
        have hwindow := hcopy.trans (readStaged_zero _).symm
        rw [readStaged_add _ (by omega)] at hwindow
        exact hwindow
      · have hwhole : min front.unread.length (size - stored.length) = front.unread.length := by
          omega
        have hnext : Reading before (stored ++ front.unread)
            { t.copyOut stored.length front.unread with localOut := localOut } :=
          h.copyOut List.flatMap_cons
        have hle : (stored ++ front.unread).length ≤ size := by
          rw [List.length_append]
          omega
        have hleft : front.unread.length + (size - (stored ++ front.unread).length) =
            size - stored.length := by
          rw [List.length_append] at hle ⊢
          omega
        rw [hwhole, List.take_length, ← List.length_append, ih hle hnext, window_copyOut,
          readStaged_add _ (by omega), hleft]
    · rw [if_neg hmore, Nat.sub_eq_zero_of_le (Nat.le_of_not_lt hmore), readStaged_zero]
      rfl

end Window

end Lupine
