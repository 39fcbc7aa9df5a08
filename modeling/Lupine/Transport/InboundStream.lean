import Lupine.Transport.DeferredWrites

/-!
# The inbound stream of a client

All threads of a connection share one inbound stream. A thread of its own reads the id of the next
message into `read_id` and leaves the rest to others: `rpc_read_start` waits for the response to a
request of its caller, `rpc_dispatch` for a request of the server, which has an odd id. Whoever
finds its id reads lane and opcode, then the body without any lock, and gives the stream back with
`rpc_read_end`, which sets `read_id` to zero.

## The bytes

To say who reads what, every byte of the stream carries the number of its message and its place in
it. The code sees the bytes alone: an id, a lane or an opcode is whatever the next bytes decode to.

## One dispatcher

`read_id` is not changed when a message is claimed. That a request is not claimed twice is due to
there being one thread that dispatches, and that a response is not, to there being one thread that
waits for its id.

## The phases of a message

A message goes through three phases: its id is still to be read, its id is in `read_id`, and it has
an owner that reads the body. The invariant says which phase the stream is in and that the bytes
that are left are those of the rest of the message and of the messages behind it. So the next bytes
decode to what they should, and whoever finds the id is the thread the message is for.
-/

namespace Lupine

open Foundation

/-! ## Messages and their bytes

A stream is the encodings of its messages one after the other, with the place of every byte. The
body of a message is what follows id, lane and opcode. -/

inductive Part where
  | id
  | lane
  | op
  | body
  deriving DecidableEq, Repr

/-- A byte of the stream, with the number of its message. -/
structure InByte where
  byte : UInt8
  message : ℕ
  part : Part
  deriving DecidableEq, Repr

/-- The `int` with the given bytes. -/
def intOfBytes (bytes : List UInt8) : ℤ := (leValue bytes : ℤ).bmod (2 ^ 32)

/-- A message to a client: a response to a request of its own, or one of two requests. -/
structure InboundMessage where
  id : ℤ
  lane : ℕ
  op : ℤ
  body : List UInt8
  lane_lt : lane < 256 ^ 8
  id_int : id.bmod (2 ^ 32) = id
  op_int : op.bmod (2 ^ 32) = op
  wellFormed : id ≠ 0 ∧ localParity id = false ∧ op = -1 ∨
    Side.server.taken id ∧ (op = 1 ∨ op = 2)

def labelled (k : ℕ) (part : Part) (bytes : List UInt8) : List InByte :=
  bytes.map fun byte ↦ ⟨byte, k, part⟩

namespace InboundMessage

/-- What `rpc_read_start` or `rpc_dispatch` reads. -/
def header (m : InboundMessage) (k : ℕ) : List InByte :=
  labelled k .lane (leBytes 8 m.lane) ++ labelled k .op (intBytes m.op)

/-- The message as the one with number `k`. -/
def encode (m : InboundMessage) (k : ℕ) : List InByte :=
  labelled k .id (intBytes m.id) ++ (m.header k ++ labelled k .body m.body)

end InboundMessage

/-- A stream of messages, counted from `k`. -/
def encodeFrom : ℕ → List InboundMessage → List InByte
  | _, [] => []
  | k, m :: messages => m.encode k ++ encodeFrom (k + 1) messages

/-- The bodies of messages, counted from `k`. -/
def bodiesFrom : ℕ → List InboundMessage → List InByte
  | _, [] => []
  | k, m :: messages => labelled k .body m.body ++ bodiesFrom (k + 1) messages

/-! ## The state

An owner knows from the header how much it has to read. Claims and reads are kept, as what is
promised is about them. -/

/-- A thread that reads messages: one that called `rpc_read_start`, or one in the loop around
`rpc_dispatch`. -/
inductive ReaderThread where
  | lane (thread : ℕ)
  | dispatcher (thread : ℕ)
  deriving DecidableEq, Repr

/-- A thread between its claim and its `rpc_read_end`. It knows from the header what it has to
read: as many bytes as the body that follows has. -/
structure Owner where
  reader : ReaderThread
  id : ℤ
  op : ℤ
  left : ℕ
  deriving DecidableEq, Repr

/-- A claim: by whom, of which id, which threads waited for that id, and the bytes it read. -/
structure HeaderClaim where
  reader : ReaderThread
  id : ℤ
  waiting : List ℕ
  header : List InByte
  deriving DecidableEq, Repr

structure BodyRead where
  reader : ReaderThread
  id : ℤ
  bytes : List InByte
  deriving DecidableEq, Repr

/-- The receiving half of the connection, and what has been read so far. -/
structure InboundState where
  input : List InByte
  readId : ℤ := 0
  readLaneId : ℕ := 0
  readOp : ℤ := 0
  closed : Bool := false
  requestId : ℤ := Side.client.start
  /-- The requests whose threads are in, or about to call, `rpc_read_start`. -/
  awaiting : List (ℕ × ℤ) := []
  owners : List Owner := []
  ids : List (List InByte) := []
  claims : List HeaderClaim := []
  bodies : List BodyRead := []
  deriving DecidableEq, Repr

/-- A dispatcher whose opcode is neither of the two goes straight to its next `rpc_dispatch`. -/
def Owner.ends (owner : Owner) : Bool :=
  match owner.reader with
  | .lane _ => true
  | .dispatcher _ => owner.op = 1 ∨ owner.op = 2

namespace InboundState

def busy (st : InboundState) (reader : ReaderThread) : Bool :=
  st.owners.any fun owner ↦ owner.reader = reader ∧ owner.ends

def waitingFor (st : InboundState) (id : ℤ) : List ℕ :=
  (st.awaiting.filter fun request ↦ request.2 = id).map Prod.fst

/-- What is awaited once a message is read, the last with its id or not. -/
def awaitingAfter (st : InboundState) (reader : ReaderThread) (id : ℤ) (last : Bool) :
    List (ℕ × ℤ) :=
  match reader, last with
  | .lane thread, true => st.awaiting.erase (thread, id)
  | _, _ => st.awaiting

end InboundState

/-! ## Steps

A claim is one step, since it reads lane and opcode under the lock. The body is read in as many
steps as the thread likes. -/

/-- A step of the thread that reads ids, of a lane, or of a dispatcher. -/
inductive InboundStep where
  /-- The next id is read, or no id is left. -/
  | readId
  | endOfStream
  /-- A request is written, with a caller that waits for its response or without. -/
  | request (thread : ℕ) (waits : Bool)
  /-- `rpc_read_start` finds its id. -/
  | readStart (thread : ℕ) (id : ℤ)
  /-- `rpc_dispatch` finds an id. -/
  | dispatch (thread : ℕ)
  /-- Some bytes of the body. -/
  | read (reader : ReaderThread) (size : ℕ)
  /-- `rpc_read_end`, after the last message with this id or before another. -/
  | readEnd (reader : ReaderThread) (last : Bool)
  | close
  deriving DecidableEq, Repr

/-- `rpc_read_start` wants the opcode -1. The loop around `rpc_dispatch` is left if the opcode is
negative. -/
def ReaderThread.accepts : ReaderThread → ℤ → Bool
  | lane _, op => op = -1
  | dispatcher _, op => 0 ≤ op

/-- How long the body is that comes next. -/
def bodyLength (input : List InByte) : ℕ :=
  (input.takeWhile fun b ↦ b.part = .body).length

/-- Lane and opcode are read, and the thread owns the stream. -/
def claimHeader (st : InboundState) (reader : ReaderThread) : InboundState :=
  if 12 ≤ st.input.length then
    let header := st.input.take 12
    let input := st.input.drop 12
    let op := intOfBytes ((header.drop 8).map InByte.byte)
    let st : InboundState := { st with
      input := input
      readLaneId := leValue ((header.take 8).map InByte.byte)
      readOp := op
      claims := st.claims ++ [⟨reader, st.readId, st.waitingFor st.readId, header⟩] }
    if reader.accepts op then
      { st with owners := ⟨reader, st.readId, op, bodyLength input⟩ :: st.owners }
    else { st with closed := true }
  else { st with closed := true }

def inboundStep (st : InboundState) : InboundStep → Option InboundState
  | .readId =>
    if st.readId = 0 ∧ !st.closed ∧ 4 ≤ st.input.length then
      let id := intOfBytes ((st.input.take 4).map InByte.byte)
      let st := { st with input := st.input.drop 4, ids := st.ids ++ [st.input.take 4] }
      some (if id = 0 then { st with closed := true } else { st with readId := id })
    else none
  | .endOfStream =>
    if st.readId = 0 ∧ !st.closed ∧ st.input.length < 4 then some { st with closed := true }
    else none
  | .request thread waits =>
    let id := intAdd st.requestId 2
    some { st with
      requestId := id
      -- a negative id is a failure to the caller, who does not wait then
      awaiting := if waits ∧ 0 ≤ id then (thread, id) :: st.awaiting else st.awaiting }
  | .readStart thread id =>
    if (thread, id) ∈ st.awaiting ∧ !st.busy (.lane thread) ∧ !st.closed ∧ st.readId = id then
      some (claimHeader st (.lane thread))
    else none
  | .dispatch thread =>
    if !st.busy (.dispatcher thread) ∧ !st.closed ∧ Side.server.taken st.readId then
      some (claimHeader st (.dispatcher thread))
    else none
  | .read reader size =>
    match st.owners.find? fun owner ↦ owner.reader = reader with
    | some owner =>
      if size ≤ owner.left then
        some { st with
          input := st.input.drop size
          owners := { owner with left := owner.left - size } :: st.owners.erase owner
          bodies := st.bodies ++ [⟨reader, owner.id, st.input.take size⟩] }
      else none
    | none => none
  | .readEnd reader last =>
    match st.owners.find? fun owner ↦ owner.reader = reader with
    | some owner =>
      if owner.left = 0 ∧ owner.ends then
        some { st with
          readId := 0
          owners := st.owners.erase owner
          awaiting := st.awaitingAfter reader owner.id last }
      else none
    | none => none
  | .close => some { st with closed := true }

def inboundMachine : Machine InboundState InboundStep where
  step := inboundStep

/-! ## Reading the bytes of a message

An `int` survives the trip, the header of an encoded message decodes to the message, and its body
ends where the next message begins. -/

theorem length_labelled (k : ℕ) (part : Part) (bytes : List UInt8) :
    (labelled k part bytes).length = bytes.length := List.length_map _

theorem map_byte_labelled (k : ℕ) (part : Part) (bytes : List UInt8) :
    (labelled k part bytes).map InByte.byte = bytes := by
  rw [labelled, List.map_map]
  exact List.map_id _

theorem labelled_append (k : ℕ) (part : Part) (bytes others : List UInt8) :
    labelled k part (bytes ++ others) = labelled k part bytes ++ labelled k part others :=
  List.map_append

theorem length_intBytes (value : ℤ) : (intBytes value).length = 4 := length_leBytes 4 _

theorem leValue_intBytes (value : ℤ) :
    (leValue (intBytes value) : ℤ) = value % ((2 ^ 32 : ℕ) : ℤ) := by
  have hlt : (value % 2 ^ 32).toNat < 256 ^ 4 := by omega
  rw [intBytes, leValue_leBytes hlt]
  omega

theorem intOfBytes_intBytes {value : ℤ} (h : value.bmod (2 ^ 32) = value) :
    intOfBytes (intBytes value) = value := by
  have hmod : ∀ n : ℕ, (value % (n : ℤ)).bmod n = value.bmod n := Int.emod_bmod value
  unfold intOfBytes
  rw [leValue_intBytes]
  exact (hmod (2 ^ 32)).trans h

theorem length_header (m : InboundMessage) (k : ℕ) : (m.header k).length = 12 := by
  rw [InboundMessage.header, List.length_append, length_labelled, length_labelled, length_leBytes,
    length_intBytes]

theorem header_fields (m : InboundMessage) (k : ℕ) :
    leValue (((m.header k).take 8).map InByte.byte) = m.lane ∧
      intOfBytes (((m.header k).drop 8).map InByte.byte) = m.op := by
  have hlane : (labelled k .lane (leBytes 8 m.lane)).length = 8 := by
    rw [length_labelled, length_leBytes]
  rw [InboundMessage.header, List.take_left' hlane, List.drop_left' hlane, map_byte_labelled,
    map_byte_labelled, leValue_leBytes m.lane_lt, intOfBytes_intBytes m.op_int]
  exact ⟨rfl, rfl⟩

theorem bodyLength_append (k : ℕ) (body : List UInt8) (next : ℕ) (messages : List InboundMessage) :
    bodyLength (labelled k .body body ++ encodeFrom next messages) = body.length := by
  have hbody : ∀ b ∈ labelled k .body body, decide (b.part = .body) = true := by
    intro b hb
    obtain ⟨byte, -, rfl⟩ := List.mem_map.mp hb
    rfl
  have hnext : (encodeFrom next messages).takeWhile (fun b ↦ b.part = .body) = [] := by
    cases messages with
    | nil => rfl
    | cons m messages => rfl
  rw [bodyLength, List.takeWhile_append_of_pos hbody, hnext, List.append_nil, length_labelled]

theorem encodeFrom_drop {messages : List InboundMessage} {n : ℕ} {m : InboundMessage}
    (h : messages[n]? = some m) :
    encodeFrom n (messages.drop n) = m.encode n ++ encodeFrom (n + 1) (messages.drop (n + 1)) := by
  obtain ⟨hn, rfl⟩ := List.getElem?_eq_some_iff.mp h
  rw [List.drop_eq_getElem_cons hn, encodeFrom]

theorem bodiesFrom_append (k : ℕ) (messages others : List InboundMessage) :
    bodiesFrom k (messages ++ others)
      = bodiesFrom k messages ++ bodiesFrom (k + messages.length) others := by
  induction messages generalizing k with
  | nil => rfl
  | cons m messages ih =>
    rw [List.cons_append, bodiesFrom, bodiesFrom, ih, List.append_assoc, List.length_cons,
      Nat.add_right_comm, Nat.add_assoc]

theorem bodiesFrom_take {messages : List InboundMessage} {n : ℕ} {m : InboundMessage}
    (h : messages[n]? = some m) :
    bodiesFrom 0 (messages.take (n + 1))
      = bodiesFrom 0 (messages.take n) ++ labelled n .body m.body := by
  obtain ⟨hn, rfl⟩ := List.getElem?_eq_some_iff.mp h
  rw [List.take_succ_eq_append_getElem hn, bodiesFrom_append, List.length_take,
    Nat.min_eq_left hn.le, Nat.zero_add]
  exact congrArg _ (List.append_nil _)

/-! ## The invariant

An even id is none that a dispatcher takes, and at most one thread waits for it. This is what makes
the phase after a claim determined: the thread that the message is for becomes the owner. -/

/-- A claim of the message with number `k`: a response is claimed by the one thread that waits for
it, a request by a dispatcher. -/
structure HeaderClaim.Of (claim : HeaderClaim) (m : InboundMessage) (k : ℕ) : Prop where
  id : claim.id = m.id
  header : claim.header = m.header k
  reader : match claim.reader with
    | .lane thread => Side.server.taken m.id = false ∧ claim.waiting = [thread]
    | .dispatcher _ => Side.server.taken m.id = true

/-- A read of bytes from the body of a message that the reader has claimed. -/
def BodyRead.By (read : BodyRead) (claims : List HeaderClaim) : Prop :=
  ∃ (k : ℕ) (claim : HeaderClaim), claims[k]? = some claim ∧ claim.reader = read.reader ∧
    claim.id = read.id ∧ ∀ b ∈ read.bytes, b.message = k ∧ b.part = .body

/-- Where the stream is: before a message, behind its id, or in its body. -/
inductive Phase (messages : List InboundMessage) (n : ℕ) (st : InboundState) : Prop
  | free (readId : st.readId = 0) (owners : st.owners = [])
      (input : st.input = encodeFrom n (messages.drop n)) (claims : st.claims.length = n)
      (ids : st.ids.length = n)
      (bodies : st.bodies.flatMap BodyRead.bytes = bodiesFrom 0 (messages.take n))
  | reserved (m : InboundMessage) (message : messages[n]? = some m) (readId : st.readId = m.id)
      (owners : st.owners = [])
      (input : st.input = m.header n ++
        (labelled n .body m.body ++ encodeFrom (n + 1) (messages.drop (n + 1))))
      (claims : st.claims.length = n) (ids : st.ids.length = n + 1)
      (bodies : st.bodies.flatMap BodyRead.bytes = bodiesFrom 0 (messages.take n))
  | owned (m : InboundMessage) (owner : Owner) (claim : HeaderClaim) (done rest : List UInt8)
      (message : messages[n]? = some m) (readId : st.readId = m.id) (owners : st.owners = [owner])
      (ends : owner.ends) (id : owner.id = m.id)
      (waits : ∀ thread, owner.reader = .lane thread → (thread, owner.id) ∈ st.awaiting)
      (only : ∀ thread, owner.reader = .dispatcher thread → thread = 0)
      (claimed : st.claims[n]? = some claim) (reader : claim.reader = owner.reader)
      (body : m.body = done ++ rest) (left : owner.left = rest.length)
      (input : st.input
        = labelled n .body rest ++ encodeFrom (n + 1) (messages.drop (n + 1)))
      (claims : st.claims.length = n + 1) (ids : st.ids.length = n + 1)
      (bodies : st.bodies.flatMap BodyRead.bytes
        = bodiesFrom 0 (messages.take n) ++ labelled n .body done)

structure InSync (messages : List InboundMessage) (st : InboundState) : Prop where
  phase : ∃ n, Phase messages n st
  claims : ∀ (k : ℕ) (claim : HeaderClaim), st.claims[k]? = some claim →
    ∃ m, messages[k]? = some m ∧ claim.Of m k
  ids : ∀ (k : ℕ) (id : List InByte), st.ids[k]? = some id →
    ∃ m, messages[k]? = some m ∧ id = labelled k .id (intBytes m.id)
  bodies : ∀ read ∈ st.bodies, read.By st.claims
  even : st.requestId % 2 = 0
  awaiting : ∀ request ∈ st.awaiting, request.2 % 2 = 0 ∧ 0 < request.2
  distinct : (st.awaiting.map Prod.snd).Nodup

variable {messages : List InboundMessage} {st st' : InboundState}

theorem waitingFor_eq {thread : ℕ} {id : ℤ} (h : (st.awaiting.map Prod.snd).Nodup)
    (hmem : (thread, id) ∈ st.awaiting) : st.waitingFor id = [thread] := by
  rw [InboundState.waitingFor]
  generalize st.awaiting = awaiting at h hmem
  induction awaiting with
  | nil => exact absurd hmem List.not_mem_nil
  | cons request requests ih =>
    rw [List.map_cons, List.nodup_cons] at h
    rcases List.mem_cons.mp hmem with rfl | hmem
    · have hnone : requests.filter (fun request ↦ request.2 = id) = [] := by
        rw [List.filter_eq_nil_iff]
        intro request hrequest heq
        exact h.1 (List.mem_map.mpr ⟨request, hrequest, of_decide_eq_true heq⟩)
      rw [List.filter_cons_of_pos (by simp), hnone]
      rfl
    · have hne : ¬ request.2 = id := fun heq ↦
        h.1 (List.mem_map.mpr ⟨(thread, id), hmem, heq.symm⟩)
      rw [List.filter_cons_of_neg (by simpa using hne)]
      exact ih h.2 hmem

theorem claimHeader_spec {reader : ReaderThread} {m : InboundMessage} {n next : ℕ}
    (hinput : st.input
      = m.header n ++ (labelled n .body m.body ++ encodeFrom next (messages.drop next)))
    (haccepts : reader.accepts m.op) :
    claimHeader st reader = { st with
      input := labelled n .body m.body ++ encodeFrom next (messages.drop next)
      readLaneId := m.lane
      readOp := m.op
      claims := st.claims ++ [⟨reader, st.readId, st.waitingFor st.readId, m.header n⟩]
      owners := ⟨reader, st.readId, m.op, m.body.length⟩ :: st.owners } := by
  have hlength := length_header m n
  obtain ⟨hlane, hop⟩ := header_fields m n
  have hlong : 12 ≤ st.input.length := by
    rw [hinput, List.length_append, hlength]
    exact Nat.le_add_right _ _
  have htake : st.input.take 12 = m.header n := by rw [hinput, List.take_left' hlength]
  have hdrop : st.input.drop 12
      = labelled n .body m.body ++ encodeFrom next (messages.drop next) := by
    rw [hinput, List.drop_left' hlength]
  rw [claimHeader, if_pos hlong, htake, hdrop]
  simp only [hlane, hop, bodyLength_append, haccepts, if_true]

theorem InboundMessage.id_ne_zero (m : InboundMessage) : m.id ≠ 0 := by
  rcases m.wellFormed with ⟨hid, -⟩ | ⟨htaken, -⟩
  · exact hid
  · intro hid
    rw [hid] at htaken
    exact absurd htaken (by decide)

theorem InboundMessage.op_of_taken (m : InboundMessage) :
    (Side.server.taken m.id = true → m.op = 1 ∨ m.op = 2) ∧
      (Side.server.taken m.id = false → m.op = -1) := by
  rcases m.wellFormed with ⟨-, hparity, hop⟩ | ⟨htaken, hop⟩
  · refine ⟨fun htaken ↦ ?_, fun _ ↦ hop⟩
    rw [Side.taken, hparity] at htaken
    exact absurd htaken (by simp)
  · exact ⟨fun _ ↦ hop, fun hnot ↦ absurd htaken (by rw [hnot]; decide)⟩

/-- An even id is none that a dispatcher takes. -/
theorem taken_of_even {id : ℤ} (heven : id % 2 = 0) (hpos : 0 < id) :
    Side.server.taken id = false := by
  have hparity : localParity id = false := by
    rw [localParity, Int.tmod_eq_emod_of_nonneg hpos.le]
    exact decide_eq_false (by omega)
  rw [Side.taken, hparity]
  simp

theorem intAdd_even {id : ℤ} (heven : id % 2 = 0) : intAdd id 2 % 2 = 0 := by
  have hsplit := Int.bmod_add_bdiv (id + 2) (2 ^ 32)
  rw [intAdd]
  generalize (id + 2).bmod (2 ^ 32) = a at hsplit
  generalize (id + 2).bdiv (2 ^ 32) = q at hsplit
  omega

theorem Phase.mono {n : ℕ} (h : Phase messages n st) {awaiting : List (ℕ × ℤ)}
    (hawaiting : ∀ request ∈ st.awaiting, request ∈ awaiting) (closed : Bool) (requestId : ℤ) :
    Phase messages n { st with
      closed := closed, requestId := requestId, awaiting := awaiting } := by
  cases h with
  | free readId owners input claims ids bodies =>
    exact .free readId owners input claims ids bodies
  | reserved m message readId owners input claims ids bodies =>
    exact .reserved m message readId owners input claims ids bodies
  | owned m owner claim done rest message readId owners ends id waits only claimed reader body left
      input claims ids bodies =>
    exact .owned m owner claim done rest message readId owners ends id
      (fun thread hthread ↦ hawaiting _ (waits thread hthread)) only claimed reader body left input
      claims ids bodies

/-- **A claim.** Behind an id, the thread that the message is for becomes its owner. -/
theorem inSync_claim {reader : ReaderThread} {n : ℕ} {m : InboundMessage} (h : InSync messages st)
    (hmessage : messages[n]? = some m) (hreadId : st.readId = m.id) (howners : st.owners = [])
    (hinput : st.input
      = m.header n ++ (labelled n .body m.body ++ encodeFrom (n + 1) (messages.drop (n + 1))))
    (hclaims : st.claims.length = n) (hids : st.ids.length = n + 1)
    (hbodies : st.bodies.flatMap BodyRead.bytes = bodiesFrom 0 (messages.take n))
    (haccepts : reader.accepts m.op)
    (hends : Owner.ends ⟨reader, st.readId, m.op, m.body.length⟩)
    (hwaits : ∀ thread, reader = .lane thread → (thread, m.id) ∈ st.awaiting)
    (honly : ∀ thread, reader = .dispatcher thread → thread = 0 ∧ Side.server.taken m.id = true) :
    InSync messages (claimHeader st reader) := by
  rw [claimHeader_spec hinput haccepts]
  let claim : HeaderClaim := ⟨reader, st.readId, st.waitingFor st.readId, m.header n⟩
  have hnew : claim.Of m n := by
    refine ⟨hreadId, rfl, ?_⟩
    -- a response goes to the lane that waits for its id, a request to the dispatcher
    cases reader with
    | lane thread =>
      have hwait := hwaits thread rfl
      obtain ⟨heven, hpos⟩ := h.awaiting _ hwait
      refine ⟨taken_of_even heven hpos, ?_⟩
      show st.waitingFor st.readId = [thread]
      rw [hreadId]
      exact waitingFor_eq h.distinct hwait
    | dispatcher thread => exact (honly thread rfl).2
  refine ⟨⟨n, .owned m _ claim [] m.body hmessage hreadId (by rw [howners]) hends hreadId ?_ ?_ ?_
    rfl rfl rfl rfl ?_ hids ?_⟩, ?_, h.ids, ?_, h.even, h.awaiting, h.distinct⟩
  · exact fun thread hthread ↦ hreadId ▸ hwaits thread hthread
  · exact fun thread hthread ↦ (honly thread hthread).1
  · rw [List.getElem?_append_right hclaims.le, hclaims, Nat.sub_self]
    rfl
  · rw [List.length_append, hclaims]
    rfl
  · exact hbodies.trans (List.append_nil _).symm
  · intro k claim hclaim
    rw [List.getElem?_append] at hclaim
    split_ifs at hclaim with hk
    · exact h.claims k claim hclaim
    · rw [List.getElem?_singleton] at hclaim
      split_ifs at hclaim with hzero
      obtain rfl : k = n := by omega
      exact ⟨m, hmessage, Option.some.inj hclaim ▸ hnew⟩
  · intro read hread
    obtain ⟨k, claim, hclaim, hreader⟩ := h.bodies read hread
    have hk : k < st.claims.length := (List.getElem?_eq_some_iff.mp hclaim).1
    exact ⟨k, claim, (List.getElem?_append_left hk).trans hclaim, hreader⟩

theorem inSync_readId (h : InSync messages st) (hstep : inboundStep st .readId = some st') :
    InSync messages st' := by
  rw [inboundStep] at hstep
  split_ifs at hstep with hguard
  obtain ⟨hzero, -, hlong⟩ := hguard
  obtain ⟨n, hphase⟩ := h.phase
  cases hphase with
  -- an id that was read is not 0, so nobody reads another in these two phases
  | reserved m message readId => exact absurd (readId.symm.trans hzero) m.id_ne_zero
  | owned m owner claim done rest message readId =>
    exact absurd (readId.symm.trans hzero) m.id_ne_zero
  | free readId owners input claims ids bodies =>
    cases hmessage : messages[n]? with
    | none =>
      -- a stream that has ended gives no four bytes
      rw [input, List.drop_eq_nil_of_le (List.getElem?_eq_none_iff.mp hmessage)] at hlong
      exact absurd hlong (by rw [encodeFrom]; decide)
    | some m =>
      have hlength : (labelled n .id (intBytes m.id)).length = 4 := by
        rw [length_labelled, length_intBytes]
      -- what comes next is the id, and behind it the rest of the message
      have hsplit : st.input = labelled n .id (intBytes m.id) ++ (m.header n ++
          (labelled n .body m.body ++ encodeFrom (n + 1) (messages.drop (n + 1)))) := by
        rw [input, encodeFrom_drop hmessage, InboundMessage.encode, List.append_assoc,
          List.append_assoc]
      have htake : st.input.take 4 = labelled n .id (intBytes m.id) := by
        rw [hsplit, List.take_left' hlength]
      have hdrop : st.input.drop 4 = m.header n ++
          (labelled n .body m.body ++ encodeFrom (n + 1) (messages.drop (n + 1))) := by
        rw [hsplit, List.drop_left' hlength]
      simp only [htake, hdrop, map_byte_labelled, intOfBytes_intBytes m.id_int,
        if_neg m.id_ne_zero] at hstep
      obtain rfl := Option.some.inj hstep
      refine ⟨⟨n, .reserved m hmessage rfl owners rfl claims ?_ bodies⟩, h.claims, ?_, h.bodies,
        h.even, h.awaiting, h.distinct⟩
      · rw [List.length_append, ids]
        rfl
      · intro k id hid
        rw [List.getElem?_append] at hid
        split_ifs at hid with hk
        · exact h.ids k id hid
        · rw [List.getElem?_singleton] at hid
          split_ifs at hid
          obtain rfl : k = n := by omega
          exact ⟨m, hmessage, (Option.some.inj hid).symm⟩

/-- A step that finds a message to end is one of its owner. -/
theorem Phase.owned_of_find {n : ℕ} (h : Phase messages n st) {reader : ReaderThread}
    {found : Owner} (hfind : st.owners.find? (fun owner ↦ owner.reader = reader) = some found) :
    st.owners = [found] ∧ found.reader = reader := by
  have hreader : found.reader = reader := by simpa using List.find?_some hfind
  have hmem := List.mem_of_find?_eq_some hfind
  cases h with
  | free _ owners => exact absurd hmem (by rw [owners]; exact List.not_mem_nil)
  | reserved _ _ _ owners => exact absurd hmem (by rw [owners]; exact List.not_mem_nil)
  | owned m owner claim done rest message readId owners =>
    rw [owners, List.mem_singleton] at hmem
    rw [hmem]
    exact ⟨owners, hmem ▸ hreader⟩

theorem inSync_read (h : InSync messages st) {reader : ReaderThread} {size : ℕ}
    (hstep : inboundStep st (.read reader size) = some st') : InSync messages st' := by
  rw [inboundStep] at hstep
  cases hfind : st.owners.find? (fun owner ↦ owner.reader = reader) with
  | none =>
    rw [hfind] at hstep
    exact absurd hstep (by simp)
  | some found =>
    rw [hfind] at hstep
    simp only at hstep
    split_ifs at hstep with hsize
    obtain rfl := Option.some.inj hstep
    obtain ⟨n, hphase⟩ := h.phase
    obtain ⟨hfound, hreader⟩ := hphase.owned_of_find hfind
    -- a read is made by the owner, so in the other two phases there is none
    cases hphase with
    | free _ owners => exact absurd (owners.symm.trans hfound) (by simp)
    | reserved _ _ _ owners => exact absurd (owners.symm.trans hfound) (by simp)
    | owned m owner claim done rest message readId owners ends id waits only claimed isReader body
        left input claims ids bodies =>
      obtain rfl : owner = found := List.singleton_inj.mp (owners.symm.trans hfound)
      -- there are as many bytes left in the body as are asked for
      have hprefix : (labelled n .body (rest.take size)).length = size := by
        rw [length_labelled, List.length_take]
        omega
      have hsplit : st.input = labelled n .body (rest.take size) ++
          (labelled n .body (rest.drop size) ++ encodeFrom (n + 1) (messages.drop (n + 1))) := by
        rw [← List.append_assoc, ← labelled_append, List.take_append_drop, input]
      refine ⟨⟨n, .owned m { owner with left := owner.left - size } claim (done ++ rest.take size)
        (rest.drop size) message readId ?_ ends id waits only claimed isReader ?_ ?_ ?_ claims ids
        ?_⟩, h.claims, h.ids, ?_, h.even, h.awaiting, h.distinct⟩
      · rw [owners, List.erase_cons_head]
      · rw [List.append_assoc, List.take_append_drop, body]
      · rw [List.length_drop, ← left]
      · rw [hsplit, List.drop_left' hprefix]
      · rw [List.flatMap_append, bodies, List.flatMap_singleton, hsplit, List.take_left' hprefix,
          List.append_assoc, labelled_append]
      · intro read hread
        rcases List.mem_append.mp hread with hold | hnew
        · exact h.bodies read hold
        -- the bytes are of the body whose header this reader has claimed
        · have hclaimId : claim.id = owner.id := by
            obtain ⟨m', hm', hof⟩ := h.claims n claim claimed
            rw [hof.id, id, Option.some.inj (message.symm.trans hm')]
          rw [List.mem_singleton.mp hnew]
          refine ⟨n, claim, claimed, isReader.trans hreader, hclaimId, fun b hb ↦ ?_⟩
          rw [hsplit, List.take_left' hprefix] at hb
          obtain ⟨byte, -, rfl⟩ := List.mem_map.mp hb
          exact ⟨rfl, rfl⟩

theorem awaitingAfter_sublist (st : InboundState) (reader : ReaderThread) (id : ℤ) (last : Bool) :
    List.Sublist (st.awaitingAfter reader id last) st.awaiting := by
  cases reader with
  | lane thread =>
    cases last with
    | false => exact List.Sublist.refl _
    | true => exact List.erase_sublist
  | dispatcher thread => exact List.Sublist.refl _

theorem inSync_readEnd (h : InSync messages st) {reader : ReaderThread} {last : Bool}
    (hstep : inboundStep st (.readEnd reader last) = some st') : InSync messages st' := by
  rw [inboundStep] at hstep
  cases hfind : st.owners.find? (fun owner ↦ owner.reader = reader) with
  | none =>
    rw [hfind] at hstep
    exact absurd hstep (by simp)
  | some found =>
    rw [hfind] at hstep
    simp only at hstep
    split_ifs at hstep with hdone
    obtain rfl := Option.some.inj hstep
    obtain ⟨n, hphase⟩ := h.phase
    obtain ⟨hfound, -⟩ := hphase.owned_of_find hfind
    cases hphase with
    | free _ owners => exact absurd (owners.symm.trans hfound) (by simp)
    | reserved _ _ _ owners => exact absurd (owners.symm.trans hfound) (by simp)
    | owned m owner claim done rest message readId owners ends id waits only claimed isReader body
        left input claims ids bodies =>
      obtain rfl : owner = found := List.singleton_inj.mp (owners.symm.trans hfound)
      obtain rfl : rest = [] := List.length_eq_zero_iff.mp (left.symm.trans hdone.1)
      have hbodies : st.bodies.flatMap BodyRead.bytes
          = bodiesFrom 0 (messages.take (n + 1)) := by
        rw [bodiesFrom_take message, bodies, body, List.append_nil]
      have hsublist := awaitingAfter_sublist st reader owner.id last
      exact ⟨⟨n + 1, .free rfl (by rw [owners, List.erase_cons_head]) input claims ids hbodies⟩,
        h.claims, h.ids, h.bodies, h.even, fun request hrequest ↦
          h.awaiting request (hsublist.subset hrequest),
        h.distinct.sublist (hsublist.map _)⟩

theorem busy_of_owners {owner : Owner} {reader : ReaderThread} (howners : st.owners = [owner])
    (hreader : owner.reader = reader) (hends : owner.ends) : st.busy reader := by
  rw [InboundState.busy, howners, List.any_cons, List.any_nil, hreader, hends]
  simp

theorem inSync_readStart (h : InSync messages st) {thread : ℕ} {id : ℤ}
    (hstep : inboundStep st (.readStart thread id) = some st') : InSync messages st' := by
  rw [inboundStep] at hstep
  split_ifs at hstep with hguard
  obtain ⟨hwait, hbusy, -, hid⟩ := hguard
  obtain rfl := Option.some.inj hstep
  obtain ⟨heven, hpos⟩ := h.awaiting _ hwait
  obtain ⟨n, hphase⟩ := h.phase
  cases hphase with
  | free readId => exact absurd (hid.symm.trans readId) hpos.ne'
  | reserved m message readId owners input claims ids bodies =>
    have hm : m.id = id := readId.symm.trans hid
    have hop : m.op = -1 := m.op_of_taken.2 (hm ▸ taken_of_even heven hpos)
    refine inSync_claim h message readId owners input claims ids bodies ?_ rfl ?_ ?_
    · rw [hop]
      rfl
    · intro t ht
      obtain rfl : thread = t := ReaderThread.lane.inj ht
      exact hm ▸ hwait
    · exact fun t ht ↦ absurd ht (by simp)
  | owned m owner claim done rest message readId owners ends hownerId waits only claimed isReader =>
    have hm : m.id = id := readId.symm.trans hid
    obtain ⟨m', hm', hof⟩ := h.claims n claim claimed
    obtain rfl : m = m' := Option.some.inj (message.symm.trans hm')
    have hkind := hof.reader
    cases hreader : owner.reader with
    | lane t =>
      -- whoever waits for the id is the owner itself
      have hsame := (List.singleton_inj.mp <| (waitingFor_eq h.distinct hwait).symm.trans
        (waitingFor_eq h.distinct ((hownerId.trans hm) ▸ waits t hreader)))
      rw [hsame] at hbusy
      exact absurd (busy_of_owners owners hreader ends) (by simpa using hbusy)
    | dispatcher t =>
      rw [isReader, hreader, hm] at hkind
      exact absurd hkind (by rw [taken_of_even heven hpos]; exact Bool.false_ne_true)

theorem inSync_dispatch (h : InSync messages st)
    (hstep : inboundStep st (.dispatch 0) = some st') : InSync messages st' := by
  rw [inboundStep] at hstep
  split_ifs at hstep with hguard
  obtain ⟨hbusy, -, htaken⟩ := hguard
  obtain rfl := Option.some.inj hstep
  obtain ⟨n, hphase⟩ := h.phase
  cases hphase with
  | free readId =>
    rw [readId] at htaken
    exact absurd htaken (by decide)
  | reserved m message readId owners input claims ids bodies =>
    rw [readId] at htaken
    have hop := m.op_of_taken.1 htaken
    refine inSync_claim h message readId owners input claims ids bodies ?_ ?_ ?_ ?_
    · rcases hop with hop | hop <;> rw [hop] <;> decide
    · rcases hop with hop | hop <;> rw [Owner.ends] <;> simp [hop]
    · exact fun t ht ↦ absurd ht (by simp)
    · intro t ht
      exact ⟨(ReaderThread.dispatcher.inj ht).symm, htaken⟩
  | owned m owner claim done rest message readId owners ends hownerId waits only claimed isReader =>
    obtain ⟨m', hm', hof⟩ := h.claims n claim claimed
    obtain rfl : m = m' := Option.some.inj (message.symm.trans hm')
    have hkind := hof.reader
    cases hreader : owner.reader with
    | lane t =>
      rw [isReader, hreader, ← readId] at hkind
      exact absurd htaken (by rw [hkind.1]; decide)
    | dispatcher t =>
      obtain rfl := only t hreader
      exact absurd (busy_of_owners owners hreader ends) (by simpa using hbusy)

/-! ## Runs

The condition has one thread that dispatches, and no request under an id that is zero or awaited.
Each step then goes on with the phase. -/

/-- There is one thread that dispatches, and no request waits under an id that is zero or awaited
already. -/
def InboundOk (st : InboundState) : InboundStep → Prop
  | .dispatch thread => thread = 0
  | .request _ waits => waits →
      intAdd st.requestId 2 ≠ 0 ∧ intAdd st.requestId 2 ∉ st.awaiting.map Prod.snd
  | _ => True

instance (st : InboundState) (a : InboundStep) : Decidable (InboundOk st a) :=
  match a with
  | .dispatch _ => inferInstanceAs (Decidable (_ = _))
  | .request _ _ => inferInstanceAs (Decidable (_ → _ ∧ _))
  | .readId | .endOfStream | .readStart _ _ | .read _ _ | .readEnd _ _ | .close =>
    inferInstanceAs (Decidable True)

/-- **One step.** -/
theorem inSync_step (st : InboundState) (a : InboundStep) (st' : InboundState)
    (h : InSync messages st) (hstep : (inboundMachine.restrict InboundOk).step st a = some st') :
    InSync messages st' := by
  obtain ⟨hok, hstep⟩ := Machine.step_restrict.mp hstep
  replace hstep : inboundStep st a = some st' := hstep
  obtain ⟨n, hphase⟩ := h.phase
  cases a with
  | readId => exact inSync_readId h hstep
  | readStart thread id => exact inSync_readStart h hstep
  | dispatch thread =>
    obtain rfl : thread = 0 := hok
    exact inSync_dispatch h hstep
  | read reader size => exact inSync_read h hstep
  | readEnd reader last => exact inSync_readEnd h hstep
  | endOfStream =>
    rw [inboundStep] at hstep
    split_ifs at hstep
    obtain rfl := Option.some.inj hstep
    exact ⟨⟨n, hphase.mono (fun _ h ↦ h) _ _⟩, h.claims, h.ids, h.bodies, h.even, h.awaiting,
      h.distinct⟩
  | close =>
    obtain rfl := Option.some.inj hstep
    exact ⟨⟨n, hphase.mono (fun _ h ↦ h) _ _⟩, h.claims, h.ids, h.bodies, h.even, h.awaiting,
      h.distinct⟩
  | request thread waits =>
    rw [inboundStep] at hstep
    obtain rfl := Option.some.inj hstep
    have heven := intAdd_even h.even
    -- only a request that waits is noted, and with an id that nobody waits for
    by_cases hwaits : waits ∧ 0 ≤ intAdd st.requestId 2
    · obtain ⟨hne, hnew⟩ := hok hwaits.1
      simp only [if_pos hwaits]
      refine ⟨⟨n, hphase.mono (fun _ ↦ List.mem_cons_of_mem _) _ _⟩, h.claims, h.ids, h.bodies,
        heven, fun request hrequest ↦ ?_, ?_⟩
      · rcases List.mem_cons.mp hrequest with rfl | hold
        · exact ⟨heven, by omega⟩
        · exact h.awaiting request hold
      · rw [List.map_cons, List.nodup_cons]
        exact ⟨hnew, h.distinct⟩
    · simp only [if_neg hwaits]
      exact ⟨⟨n, hphase.mono (fun _ h ↦ h) _ _⟩, h.claims, h.ids, h.bodies, heven, h.awaiting,
        h.distinct⟩

theorem inSync_run {steps : List InboundStep}
    (hrun : (inboundMachine.restrict InboundOk).run { input := encodeFrom 0 messages } steps
      = some st) : InSync messages st := by
  refine Machine.run_invariant _ inSync_step ⟨⟨0, .free rfl rfl rfl rfl rfl rfl⟩, ?_, ?_, ?_, rfl,
    ?_, ?_⟩ hrun
  · exact fun k claim hclaim ↦ absurd hclaim (by simp)
  · exact fun k id hid ↦ absurd hid (by simp)
  · exact fun read hread ↦ absurd hread List.not_mem_nil
  · exact fun request hrequest ↦ absurd hrequest List.not_mem_nil
  · exact List.nodup_nil

/-- The message whose id was read last can be claimed by those it is for. -/
def InboundState.Claimable (st : InboundState) (m : InboundMessage) : Prop :=
  (Side.server.taken m.id = true → (inboundStep st (.dispatch 0)).isSome) ∧
    ∀ thread, (thread, m.id) ∈ st.awaiting → (inboundStep st (.readStart thread m.id)).isSome

/-- **The inbound stream of a client.** In every run with one dispatcher, in which no request waits
under an id that is awaited already: at most one thread owns the stream; the claims are those of the
messages in order, each by the only thread that waits for the response or by a dispatcher that takes
the request; the bytes of a body are read by the thread that claimed the message, all of them and in
order. Every message whose id was read has been claimed once, except perhaps the last, which then
has no owner and can be claimed. -/
theorem inboundStream_exclusive {steps : List InboundStep}
    (hrun : (inboundMachine.restrict InboundOk).run { input := encodeFrom 0 messages } steps
      = some st) :
    st.owners.length ≤ 1 ∧
    (∀ (k : ℕ) (claim : HeaderClaim), st.claims[k]? = some claim →
      ∃ m, messages[k]? = some m ∧ claim.Of m k) ∧
    (∀ read ∈ st.bodies, read.By st.claims) ∧
    st.bodies.flatMap BodyRead.bytes <+: bodiesFrom 0 (messages.take st.claims.length) ∧
    (st.ids.length = st.claims.length ∨
      st.ids.length = st.claims.length + 1 ∧ st.owners = [] ∧
        ∃ m, messages[st.claims.length]? = some m ∧ (st.closed = false → st.Claimable m)) := by
  have h := inSync_run hrun
  obtain ⟨n, hphase⟩ := h.phase
  refine ⟨?_, h.claims, h.bodies, ?_, ?_⟩
  · cases hphase with
    | free _ owners => rw [owners]; exact Nat.zero_le 1
    | reserved _ _ _ owners => rw [owners]; exact Nat.zero_le 1
    | owned _ _ _ _ _ _ _ owners => rw [owners]; exact le_rfl
  · cases hphase with
    | free _ _ _ claims _ bodies => exact ⟨[], by rw [List.append_nil, bodies, claims]⟩
    | reserved _ _ _ _ _ claims _ bodies => exact ⟨[], by rw [List.append_nil, bodies, claims]⟩
    | owned m _ _ done rest message _ _ _ _ _ _ _ _ body _ _ claims _ bodies =>
      refine ⟨labelled n .body rest, ?_⟩
      rw [bodies, claims, bodiesFrom_take message, body, labelled_append, List.append_assoc]
  · cases hphase with
    | free _ _ _ claims ids _ => exact Or.inl (ids.trans claims.symm)
    | owned _ _ _ _ _ _ _ _ _ _ _ _ _ _ _ _ _ claims ids _ => exact Or.inl (ids.trans claims.symm)
    | reserved m message readId owners _ claims ids _ =>
      refine Or.inr ⟨by rw [ids, claims], owners, m, by rw [claims]; exact message, fun hopen ↦ ?_⟩
      -- the message can be claimed, as nobody reads and the connection is open
      have hidle : ∀ reader, st.busy reader = false := by
        intro reader
        rw [InboundState.busy, owners]
        rfl
      refine ⟨fun htaken ↦ ?_, fun thread hwait ↦ ?_⟩
      · rw [inboundStep,
          if_pos ⟨by rw [hidle]; rfl, by rw [hopen]; rfl, by rw [readId]; exact htaken⟩]
        rfl
      · rw [inboundStep, if_pos ⟨hwait, by rw [hidle]; rfl, by rw [hopen]; rfl, readId⟩]
        rfl

/-! ## Two messages

The id of a request is drawn from an `int` that steps by two and comes round. A thread that still
waits when its id is drawn again shares its response with the thread that drew it. -/

/-- The response to the first request of a client. -/
def firstResponse : InboundMessage where
  id := 2
  lane := 7
  op := -1
  body := List.replicate 12 255
  lane_lt := by decide
  id_int := by decide
  op_int := by decide
  wellFormed := Or.inl ⟨by decide, by decide, by decide⟩

/-- The first request of a server. -/
def firstCallback : InboundMessage where
  id := 3
  lane := 7
  op := 2
  body := List.replicate 12 5
  lane_lt := by decide
  id_int := by decide
  op_int := by decide
  wellFormed := Or.inr ⟨by decide, Or.inr rfl⟩

/-- A response and a request, read in two parts and in one. -/
theorem inboundStream_exclusive_two :
    ∃ st, (inboundMachine.restrict InboundOk).run
        { input := encodeFrom 0 [firstResponse, firstCallback] }
        [.request 1 true, .readId, .readStart 1 2, .read (.lane 1) 5, .read (.lane 1) 7,
          .readEnd (.lane 1) true, .readId, .dispatch 0, .read (.dispatcher 0) 12] = some st ∧
      st.owners.length ≤ 1 ∧
      st.bodies.flatMap BodyRead.bytes
        <+: bodiesFrom 0 ([firstResponse, firstCallback].take st.claims.length) := by
  have hrun : ((inboundMachine.restrict InboundOk).run
      { input := encodeFrom 0 [firstResponse, firstCallback] }
      [.request 1 true, .readId, .readStart 1 2, .read (.lane 1) 5, .read (.lane 1) 7,
        .readEnd (.lane 1) true, .readId, .dispatch 0, .read (.dispatcher 0) 12]).isSome := by
    decide +kernel
  obtain ⟨st, hst⟩ := Option.isSome_iff_exists.mp hrun
  obtain ⟨howners, -, -, hbodies, -⟩ := inboundStream_exclusive hst
  exact ⟨st, hst, howners, hbodies⟩

theorem run_unanswered (st : InboundState) (n : ℕ) :
    inboundMachine.run st (List.replicate n (.request 0 false))
      = some { st with requestId := (fun id ↦ intAdd id 2)^[n] st.requestId } := by
  induction n generalizing st with
  | zero => rfl
  | succ n ih =>
    rw [List.replicate_succ, Machine.run_cons]
    exact ih { st with requestId := intAdd st.requestId 2 }

theorem iterate_intAdd (n : ℕ) : (fun id ↦ intAdd id 2)^[n] 2 = idAt .client (n + 1) := by
  induction n with
  | zero => decide
  | succ n ih => rw [Function.iterate_succ_apply', ih, intAdd_idAt]

/-- When an id is drawn again that a thread waits for, the thread that waits under it next claims
the same response. -/
theorem redrawn_claimed_twice {n : ℕ} (hzero : idAt .client (n + 1) = 0) :
    ∃ st, inboundMachine.run { input := encodeFrom 0 [firstResponse] }
        (.request 1 true :: (List.replicate n (.request 0 false) ++
          [.request 2 true, .readId, .readStart 1 2, .readStart 2 2])) = some st ∧
      st.ids.length = 1 ∧ st.claims.length = 2 ∧ st.owners.length = 2 := by
  have hfirst : inboundStep { input := encodeFrom 0 [firstResponse] } (.request 1 true)
      = some { input := encodeFrom 0 [firstResponse], requestId := 2, awaiting := [(1, 2)] } := by
    decide +kernel
  have hlast : (inboundMachine.run
      { input := encodeFrom 0 [firstResponse], requestId := 0, awaiting := [(1, 2)] }
      [.request 2 true, .readId, .readStart 1 2, .readStart 2 2]).map
      (fun st ↦ (st.ids.length, st.claims.length, st.owners.length)) = some (1, 2, 2) := by
    decide +kernel
  obtain ⟨st, hst, heq⟩ := Option.map_eq_some_iff.mp hlast
  obtain ⟨hids, heq⟩ := Prod.mk.inj heq
  refine ⟨st, ?_, hids, (Prod.mk.inj heq).1, (Prod.mk.inj heq).2⟩
  rw [Machine.run_cons]
  refine (congrArg (Option.bind · _) hfirst).trans ?_
  show inboundMachine.run _ _ = _
  have hdraws : (fun id ↦ intAdd id 2)^[n] 2 = 0 := (iterate_intAdd n).trans hzero
  rw [Machine.run_append, run_unanswered, Option.bind_some]
  simp only [hdraws]
  exact hst

/-- Two dispatchers claim one request, and two threads one response: the first waits for it while
2^31 requests are made, after which the ids start over. -/
theorem header_claimed_twice :
    (∃ st, inboundMachine.run { input := encodeFrom 0 [firstCallback] }
        [.readId, .dispatch 0, .dispatch 1] = some st ∧
      st.ids.length = 1 ∧ st.claims.length = 2 ∧ st.owners.length = 2) ∧
    ∃ st, inboundMachine.run { input := encodeFrom 0 [firstResponse] }
        (.request 1 true :: (List.replicate (2 ^ 31 - 1) (.request 0 false) ++
          [.request 2 true, .readId, .readStart 1 2, .readStart 2 2])) = some st ∧
      st.ids.length = 1 ∧ st.claims.length = 2 ∧ st.owners.length = 2 := by
  refine ⟨?_, redrawn_claimed_twice (by decide)⟩
  have hrun : (inboundMachine.run { input := encodeFrom 0 [firstCallback] }
      [.readId, .dispatch 0, .dispatch 1]).map
      (fun st ↦ (st.ids.length, st.claims.length, st.owners.length)) = some (1, 2, 2) := by
    decide +kernel
  obtain ⟨st, hst, heq⟩ := Option.map_eq_some_iff.mp hrun
  obtain ⟨hids, heq⟩ := Prod.mk.inj heq
  exact ⟨st, hst, hids, (Prod.mk.inj heq).1, (Prod.mk.inj heq).2⟩

end Lupine
