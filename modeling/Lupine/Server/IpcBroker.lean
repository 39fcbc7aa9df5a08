import Lupine.Foundation.LittleEndian
import Lupine.Foundation.Machine
import Lupine.Foundation.WriteLog

/-!
# The descriptor broker

Each connection has a child process of the server, and the children hand descriptors to one another
through the parent: a child registers a descriptor under a kind and a token, and any child gets it
back. Requests and replies are single packets on the socket of the child, with the descriptor in the
ancillary data. A child has one exchange at a time.

## What a failed receive leaves

`lupine_recv_broker_msg` clears the message when nothing whole was received, and a cleared reply has
the status of success. Whether a call can be trusted therefore depends on what the socket delivered:
a registration whose reply is lost reports success whatever the parent did, and a reply that is left
in the socket is taken for the reply to the next call.

A descriptor is modelled by the open file it refers to, which is what passing or duplicating it
keeps. Null tokens and negative descriptors, which are refused before anything is sent, are left
out.

## Requests and replies in step

A socket is in step when the queue has at most what belongs to the call that waits: its request, or
its reply, or nothing when the parent has dropped the socket. A reception that loses a reply leaves
the socket in step only if nothing of it stays in the queue. The reply that is received is then the
one to the call that waits, and what it says of the table was so while the call was waiting.
-/

namespace Lupine

open Foundation

/-! ## Messages

The key of a descriptor is made of its kind and its token, and no two tokens share one. -/

abbrev OpenFile := ℕ

/-- `lupine_ipc_token`. -/
abbrev IpcToken := Vector UInt8 16

/-- `LUPINE_IPC_BROKER_REGISTER`. -/
def ipcBrokerRegister : UInt32 := 1

/-- `LUPINE_IPC_BROKER_GET`. -/
def ipcBrokerGet : UInt32 := 2

/-- `lupine_ipc_broker_msg`; the default is the cleared message. -/
structure IpcBrokerMsg where
  cmd : UInt32 := 0
  kind : UInt32 := 0
  status : Int := 0
  reserved : UInt32 := 0
  token : IpcToken := Vector.replicate 16 0
  deriving DecidableEq, Repr

/-- A packet: a message, and the descriptor in its ancillary data. -/
structure BrokerPacket where
  msg : IpcBrokerMsg
  fd : Option OpenFile := none
  deriving DecidableEq, Repr

/-- `lupine_ipc_key`: the bytes of the kind and of the token. -/
def ipcKey (kind : UInt32) (token : IpcToken) : List UInt8 := leBytes 4 kind.toNat ++ token.toList

/-- Kinds partition the tokens, and no two tokens share a key. -/
theorem ipcKey_inj {kind kind' : UInt32} {token token' : IpcToken}
    (h : ipcKey kind token = ipcKey kind' token') : kind = kind' ∧ token = token' := by
  obtain ⟨hkind, htoken⟩ := List.append_inj h (by rw [length_leBytes, length_leBytes])
  have hvalue := congrArg leValue hkind
  rw [leValue_leBytes kind.toNat_lt, leValue_leBytes kind'.toNat_lt] at hvalue
  exact ⟨UInt32.toNat_inj.mp hvalue, Vector.toList_inj.mp htoken⟩

/-! ## Receiving

All ways in which `recvmsg` may end are here, also those that take a packet without giving it. -/

/-- How `recvmsg` ends. A packet comes whole, with its descriptor or without it when the process has
none left, or is cut short and lost; the call fails and takes nothing; or the other end is closed
and there is nothing more to read. -/
inductive Reception where
  | whole (fdKept : Bool)
  | truncated
  | failed
  | hangup
  deriving DecidableEq, Repr

/-- What a reception takes from the queue of a socket, with the rest of the queue, when it can
happen: the packet, or `none` when nothing whole was received. -/
def Reception.take (reception : Reception) (peerOpen : Bool) (queue : List BrokerPacket) :
    Option (Option BrokerPacket × List BrokerPacket) :=
  match reception, queue with
  | whole fdKept, packet :: rest =>
    some (some ⟨packet.msg, if fdKept then packet.fd else none⟩, rest)
  | truncated, _ :: rest => some (none, rest)
  | failed, queue => some (none, queue)
  | hangup, [] => if peerOpen then none else some (none, [])
  | _, _ => none

/-- `lupine_recv_broker_msg`: the message, and the descriptor or -1. -/
def recvBrokerMsg (received : Option BrokerPacket) : IpcBrokerMsg × Option OpenFile :=
  match received with
  | some packet => (packet.msg, packet.fd)
  | none => ({}, none)

/-! ## The parent

The parent serves one request at a time. What is not well formed gets no reply. -/

/-- The table `fds` of the parent. -/
abbrev BrokerFds := AList fun _ : List UInt8 ↦ OpenFile

/-- `lupine_ipc_broker_parent_handle`, up to sending the reply: the table, and the reply; `none` is
the return value -1 without one. -/
def ipcBrokerParentHandle (fds : BrokerFds) (received : Option BrokerPacket) :
    BrokerFds × Option BrokerPacket :=
  let msg := (recvBrokerMsg received).1
  let key := ipcKey msg.kind msg.token
  let reply : IpcBrokerMsg := { kind := msg.kind, token := msg.token }
  if msg.cmd = ipcBrokerRegister then
    match (recvBrokerMsg received).2 with
    | none => (fds, some ⟨{ reply with status := -1 }, none⟩)
    | some file => (fds.insert key file, some ⟨{ reply with status := 0 }, none⟩)
  else if msg.cmd = ipcBrokerGet then
    match fds.lookup key with
    | none => (fds, some ⟨{ reply with status := -1 }, none⟩)
    | some file => (fds, some ⟨{ reply with status := 0 }, some file⟩)
  else (fds, none)

/-- The descriptor that a request puts into the table, with its key. -/
def storedBy (received : Option BrokerPacket) : Option (List UInt8 × OpenFile) :=
  let msg := (recvBrokerMsg received).1
  if msg.cmd = ipcBrokerRegister then
    (recvBrokerMsg received).2.map fun file ↦ (ipcKey msg.kind msg.token, file)
  else none

/-! ## The calls of a child

A call reports what the reply says. A reply that was not received whole has been cleared, which
reads as success. -/

/-- `lupine_ipc_broker_register_fd` and `lupine_ipc_broker_get_fd`. -/
inductive BrokerCall where
  | registerFd (kind : UInt32) (token : IpcToken) (file : OpenFile)
  | getFd (kind : UInt32) (token : IpcToken)
  deriving DecidableEq, Repr

def BrokerCall.request : BrokerCall → BrokerPacket
  | registerFd kind token file =>
    ⟨{ cmd := ipcBrokerRegister, kind := kind, token := token }, some file⟩
  | getFd kind token => ⟨{ cmd := ipcBrokerGet, kind := kind, token := token }, none⟩

def BrokerCall.key : BrokerCall → List UInt8
  | registerFd kind token _ => ipcKey kind token
  | getFd kind token => ipcKey kind token

/-- A call that has returned: how many descriptors had been stored when it began, whether a reply
was received whole, and what `lupine_ipc_broker_exchange` gave. -/
structure BrokerReport where
  call : BrokerCall
  start : ℕ
  received : Bool
  reply : IpcBrokerMsg
  fd : Option OpenFile
  deriving DecidableEq, Repr

/-- The result of `lupine_ipc_broker_register_fd`. -/
def BrokerReport.registerResult (report : BrokerReport) : Int :=
  if report.reply.status = 0 then 0 else -1

/-- The result of `lupine_ipc_broker_get_fd`, `none` being -1. -/
def BrokerReport.getResult (report : BrokerReport) : Option OpenFile :=
  if report.reply.status ≠ 0 then none else report.fd

/-- The report of a call that no packet could be sent for. -/
def BrokerCall.unsent (call : BrokerCall) (start : ℕ) : BrokerReport :=
  ⟨call, start, false, { status := -1 }, none⟩

/-- The report of a call whose reply was received like this. -/
def BrokerCall.replied (call : BrokerCall) (start : ℕ) (received : Option BrokerPacket) :
    BrokerReport :=
  ⟨call, start, received.isSome, (recvBrokerMsg received).1, (recvBrokerMsg received).2⟩

/-! ## The processes

The log has the descriptors that were stored, in order, so that a point in time is a number. -/

/-- The socket of a child: the packets on their way, whether each end is open, and the call that
waits for its reply, with the number of descriptors stored when it began. -/
structure BrokerSocket where
  toParent : List BrokerPacket := []
  toChild : List BrokerPacket := []
  parentOpen : Bool := true
  childOpen : Bool := true
  waiting : Option (BrokerCall × ℕ) := none
  deriving DecidableEq, Repr

/-- The parent and its children, with the log of the descriptors stored and the calls returned. -/
structure BrokerState where
  fds : BrokerFds := ∅
  stores : List (List UInt8 × OpenFile) := []
  sockets : ℕ → BrokerSocket := fun _ ↦ {}
  reports : List BrokerReport := []

inductive BrokerStep where
  /-- A child sends a request, under its mutex. -/
  | exchange (child : ℕ) (call : BrokerCall) (sent : Bool)
  /-- The parent services a socket. -/
  | parentHandle (child : ℕ) (reception : Reception) (sent : Bool)
  /-- A child receives its reply. -/
  | receive (child : ℕ) (reception : Reception)
  /-- A child ends. -/
  | exit (child : ℕ)
  deriving DecidableEq, Repr

/-- The parent drops a socket that it reports dead. -/
def BrokerSocket.drop (socket : BrokerSocket) : BrokerSocket :=
  { socket with toParent := [], parentOpen := false }

/-- What the parent does to a socket with the reply: a reply that cannot be sent is a dead socket
too. -/
def BrokerSocket.answer (socket : BrokerSocket) (rest : List BrokerPacket)
    (reply : Option BrokerPacket) (sent : Bool) : BrokerSocket :=
  match reply with
  | some packet =>
    if sent then { socket with toParent := rest, toChild := socket.toChild ++ [packet] }
    else socket.drop
  | none => socket.drop

namespace BrokerState

def setSocket (st : BrokerState) (child : ℕ) (socket : BrokerSocket) : BrokerState :=
  { st with sockets := Function.update st.sockets child socket }

def step (st : BrokerState) : BrokerStep → Option BrokerState
  | .exchange child call sent =>
    let socket := st.sockets child
    if socket.childOpen ∧ socket.waiting = none ∧ (sent → socket.parentOpen) then
      if sent then
        some (st.setSocket child { socket with
          toParent := socket.toParent ++ [call.request]
          waiting := some (call, st.stores.length) })
      else some { st with reports := st.reports ++ [call.unsent st.stores.length] }
    else none
  | .parentHandle child reception sent =>
    let socket := st.sockets child
    if socket.parentOpen ∧ (sent → socket.childOpen) then
      (reception.take socket.childOpen socket.toParent).map fun taken ↦
        let handled := ipcBrokerParentHandle st.fds taken.1
        { st.setSocket child (socket.answer taken.2 handled.2 sent) with
          fds := handled.1
          stores := st.stores ++ (storedBy taken.1).toList }
    else none
  | .receive child reception =>
    let socket := st.sockets child
    socket.waiting.bind fun waiting ↦
      (reception.take socket.parentOpen socket.toChild).map fun taken ↦
        { st.setSocket child { socket with toChild := taken.2, waiting := none } with
          reports := st.reports ++ [waiting.1.replied waiting.2 taken.1] }
  | .exit child =>
    some (st.setSocket child { st.sockets child with childOpen := false, waiting := none })

end BrokerState

def ipcBroker : Machine BrokerState BrokerStep := ⟨BrokerState.step⟩

/-! ## What a call may report

A descriptor that is handed out was the last one registered at some point of the call. The condition
is on the receptions of replies and nothing else. -/

/-- **A report is right** when success means that the reply was received, and that the descriptor
was stored for this registration, or is the one that was registered last at some point of the
call. -/
def BrokerReport.Right (report : BrokerReport) (stores : List (List UInt8 × OpenFile)) : Prop :=
  match report.call with
  | .registerFd kind token file =>
    report.registerResult = 0 →
      report.received ∧ WrittenSince stores report.start (ipcKey kind token) file
  | .getFd kind token =>
    ∀ file, report.getResult = some file →
      report.received ∧ SeenSince stores report.start (ipcKey kind token) file

/-- The call that waits asks for a descriptor. -/
def BrokerSocket.Gets (socket : BrokerSocket) : Prop :=
  match socket.waiting with
  | some (.getFd _ _, _) => True
  | _ => False

instance (socket : BrokerSocket) : Decidable socket.Gets := by
  unfold BrokerSocket.Gets
  rcases socket.waiting with _ | ⟨_ | _, _⟩ <;> infer_instance

/-- The receptions of a reply that leave no call astray: a registration receives its reply whole,
and when a call that asks for a descriptor does not, nothing is left in the socket for the next
call. -/
def BrokerSocket.MayReceive (socket : BrokerSocket) : Reception → Prop
  | .whole _ => True
  | .truncated => socket.Gets
  | .failed | .hangup => socket.Gets ∧ socket.parentOpen = false ∧ socket.toChild = []

instance (socket : BrokerSocket) (reception : Reception) :
    Decidable (socket.MayReceive reception) := by
  cases reception <;> unfold BrokerSocket.MayReceive <;> infer_instance

/-- **The condition** on the steps of a run. -/
def RepliesReceived (st : BrokerState) : BrokerStep → Prop
  | .receive child reception => (st.sockets child).MayReceive reception
  | _ => True

instance (st : BrokerState) (step : BrokerStep) : Decidable (RepliesReceived st step) := by
  cases step <;> unfold RepliesReceived <;> infer_instance

/-! ## The invariant

A report that fails is right, and one that was right stays so as the log gets longer. -/

/-- What the reply to a call may be. -/
def BrokerCall.Answered (call : BrokerCall) (start : ℕ) (stores : List (List UInt8 × OpenFile))
    (reply : BrokerPacket) : Prop :=
  (call.replied start (some reply)).Right stores

/-- **A socket is in step** when between two calls of a child that runs nothing is on its way, and
during a call there is its request, or its reply, or nothing and the parent has dropped the
socket. -/
structure BrokerSocket.InStep (socket : BrokerSocket) (stores : List (List UInt8 × OpenFile)) :
    Prop where
  idle : socket.childOpen → socket.waiting = none → socket.toParent = [] ∧ socket.toChild = []
  waiting : ∀ call start, socket.waiting = some (call, start) → start ≤ stores.length ∧
    (socket.parentOpen ∧ socket.toParent = [call.request] ∧ socket.toChild = [] ∨
      socket.toParent = [] ∧
        ((∃ reply, socket.toChild = [reply] ∧ call.Answered start stores reply) ∨
          socket.toChild = [] ∧ socket.parentOpen = false))

/-- **The invariant.** The table is what was stored, every socket is in step, and every report is
right. -/
structure BrokerState.Inv (st : BrokerState) : Prop where
  fds : Logged st.fds st.stores
  sockets : ∀ child, (st.sockets child).InStep st.stores
  reports : ∀ report ∈ st.reports, report.Right st.stores

section Right

variable {report : BrokerReport} {stores : List (List UInt8 × OpenFile)} {call : BrokerCall}
  {start : ℕ} {reply : BrokerPacket} {socket : BrokerSocket}

theorem BrokerReport.Right.append (h : report.Right stores)
    (more : List (List UInt8 × OpenFile)) : report.Right (stores ++ more) := by
  obtain ⟨call, start, received, reply, fd⟩ := report
  cases call with
  | registerFd kind token file =>
    intro hsuccess
    obtain ⟨hreceived, hwritten⟩ := h hsuccess
    exact ⟨hreceived, hwritten.append more⟩
  | getFd kind token =>
    intro file hfile
    obtain ⟨hreceived, hseen⟩ := h file hfile
    exact ⟨hreceived, hseen.append more⟩

theorem BrokerReport.right_of_status (h : report.reply.status ≠ 0) (stores) :
    report.Right stores := by
  obtain ⟨call, start, received, reply, fd⟩ := report
  cases call with
  | registerFd kind token file =>
    intro hsuccess
    rw [registerResult, if_neg h] at hsuccess
    exact absurd hsuccess (by decide)
  | getFd kind token =>
    intro file hfile
    rw [getResult, if_pos h] at hfile
    exact nomatch hfile

theorem BrokerSocket.Gets.right (h : socket.Gets) (hwaiting : socket.waiting = some (call, start))
    (stores) : (call.replied start none).Right stores := by
  rw [Gets, hwaiting] at h
  cases call with
  | registerFd kind token file => exact h.elim
  | getFd kind token =>
    intro file hfile
    exact nomatch hfile

theorem BrokerSocket.InStep.append (h : socket.InStep stores)
    (more : List (List UInt8 × OpenFile)) : socket.InStep (stores ++ more) := by
  refine ⟨h.idle, fun call start hwaiting ↦ ?_⟩
  obtain ⟨hstart, hqueues⟩ := h.waiting call start hwaiting
  refine ⟨?_, ?_⟩
  · rw [List.length_append]
    exact Nat.le_add_right_of_le hstart
  · rcases hqueues with hrequest | ⟨hempty, ⟨reply, hreply, hright⟩ | hdropped⟩
    · exact Or.inl hrequest
    · exact Or.inr ⟨hempty, Or.inl ⟨reply, hreply, hright.append more⟩⟩
    · exact Or.inr ⟨hempty, Or.inr hdropped⟩

end Right

/-! ### The parent services a socket

The table stays what was stored, whatever the request. The reply to a request is right, also when
the descriptor of the request was lost. -/

section Parent

variable {fds : BrokerFds} {stores : List (List UInt8 × OpenFile)} {call : BrokerCall} {start : ℕ}
  {reception : Reception} {peerOpen : Bool} {queue rest : List BrokerPacket}
  {received : Option BrokerPacket}

theorem Reception.take_cases (h : reception.take peerOpen queue = some (received, rest)) :
    received = none ∨ ∃ packet fd, queue = packet :: rest ∧ (fd = none ∨ fd = packet.fd) ∧
      received = some ⟨packet.msg, fd⟩ := by
  cases reception with
  | whole fdKept =>
    cases queue with
    | nil => exact nomatch h
    | cons packet rest =>
      obtain ⟨rfl, rfl⟩ := Prod.mk.inj (Option.some.inj h)
      refine Or.inr ⟨packet, _, rfl, ?_, rfl⟩
      cases fdKept
      · exact Or.inl rfl
      · exact Or.inr rfl
  | truncated =>
    cases queue with
    | nil => exact nomatch h
    | cons packet rest => exact Or.inl (Prod.mk.inj (Option.some.inj h)).1.symm
  | failed => exact Or.inl (Prod.mk.inj (Option.some.inj h)).1.symm
  | hangup =>
    cases queue with
    | nil =>
      rw [take] at h
      split_ifs at h
      exact Or.inl (Prod.mk.inj (Option.some.inj h)).1.symm
    | cons packet rest => exact nomatch h

theorem logged_parentHandle (h : Logged fds stores) (received : Option BrokerPacket) :
    Logged (ipcBrokerParentHandle fds received).1 (stores ++ (storedBy received).toList) := by
  rw [ipcBrokerParentHandle, storedBy]
  split_ifs with hregister
  · cases (recvBrokerMsg received).2 with
    | none =>
      simp only [Option.map_none, Option.toList_none, List.append_nil]
      exact h
    | some file => exact h.insert _ file
  · rw [Option.toList_none, List.append_nil]
    simp only
    split <;> exact h
  · rwa [Option.toList_none, List.append_nil]

theorem storedBy_getFd (kind : UInt32) (token : IpcToken) (fd : Option OpenFile) :
    storedBy (some ⟨(BrokerCall.getFd kind token).request.msg, fd⟩) = none := rfl

theorem parentHandle_getFd (fds : BrokerFds) (kind : UInt32) (token : IpcToken)
    (fd : Option OpenFile) :
    ipcBrokerParentHandle fds (some ⟨(BrokerCall.getFd kind token).request.msg, fd⟩)
      = (fds, some (match fds.lookup (ipcKey kind token) with
        | none => ⟨{ kind := kind, token := token, status := -1 }, none⟩
        | some file => ⟨{ kind := kind, token := token, status := 0 }, some file⟩)) := by
  show (match fds.lookup (ipcKey kind token) with
    | none => (fds, some (⟨{ kind := kind, token := token, status := -1 }, none⟩ : BrokerPacket))
    | some file => (fds, some ⟨{ kind := kind, token := token, status := 0 }, some file⟩)) = _
  cases fds.lookup (ipcKey kind token) <;> rfl

/-- The reply to a request is right, also when the descriptor of the request was lost. -/
theorem parentHandle_answered (h : Logged fds stores) (hstart : start ≤ stores.length)
    {fd : Option OpenFile} (hfd : fd = none ∨ fd = call.request.fd) {reply : BrokerPacket}
    (hreply : (ipcBrokerParentHandle fds (some ⟨call.request.msg, fd⟩)).2 = some reply) :
    call.Answered start (stores ++ (storedBy (some ⟨call.request.msg, fd⟩)).toList) reply := by
  have hfailed : (-1 : ℤ) ≠ 0 := by decide
  cases call with
  | registerFd kind token file =>
    rcases hfd with rfl | rfl
    · obtain rfl := Option.some.inj hreply
      exact BrokerReport.right_of_status hfailed _
    · exact fun _ ↦ ⟨rfl, WrittenSince.concat hstart _ _⟩
  | getFd kind token =>
    rw [storedBy_getFd, Option.toList_none, List.append_nil]
    rw [parentHandle_getFd] at hreply
    obtain rfl := Option.some.inj hreply
    cases hlookup : fds.lookup (ipcKey kind token) with
    | none => exact BrokerReport.right_of_status hfailed _
    | some file =>
      rintro _ ⟨⟩
      exact ⟨rfl, SeenSince.now hstart ((h _).symm.trans hlookup)⟩

theorem BrokerCall.Answered.right {reply : BrokerPacket} (h : call.Answered start stores reply)
    {fd : Option OpenFile} (hfd : fd = none ∨ fd = reply.fd) :
    (call.replied start (some ⟨reply.msg, fd⟩)).Right stores := by
  rcases hfd with rfl | rfl
  · cases call with
    | registerFd kind token file => exact h
    | getFd kind token =>
      intro file hfile
      have hnone : ((BrokerCall.getFd kind token).replied start
          (some ⟨reply.msg, none⟩)).getResult = none := ite_self _
      exact nomatch hnone.symm.trans hfile
  · exact h

theorem BrokerSocket.InStep.answer {socket : BrokerSocket} (h : socket.InStep stores)
    (hfds : Logged fds stores)
    (htake : reception.take socket.childOpen socket.toParent = some (received, rest))
    (sent : Bool) :
    (socket.answer rest (ipcBrokerParentHandle fds received).2 sent).InStep
      (stores ++ (storedBy received).toList) := by
  have hkept := h.append (storedBy received).toList
  -- a dropped socket has lost the request, and keeps the reply that is on its way
  have hdrop : socket.drop.InStep (stores ++ (storedBy received).toList) := by
    refine ⟨fun hchild hidle ↦ ⟨rfl, (hkept.idle hchild hidle).2⟩, fun call start hwaiting ↦ ?_⟩
    obtain ⟨hstart, ⟨-, -, hreply⟩ | ⟨-, hreply | ⟨hreply, -⟩⟩⟩ := hkept.waiting call start hwaiting
    · exact ⟨hstart, Or.inr ⟨rfl, Or.inr ⟨hreply, rfl⟩⟩⟩
    · exact ⟨hstart, Or.inr ⟨rfl, Or.inl hreply⟩⟩
    · exact ⟨hstart, Or.inr ⟨rfl, Or.inr ⟨hreply, rfl⟩⟩⟩
  cases hreply : (ipcBrokerParentHandle fds received).2 with
  | none => exact hdrop
  | some reply =>
    rw [BrokerSocket.answer]
    split_ifs
    · rcases Reception.take_cases htake with rfl | ⟨packet, fd, hqueue, hfd, rfl⟩
      · exact nomatch hreply
      · refine ⟨fun hchild hidle ↦ ?_, fun call start hwaiting ↦ ?_⟩
        · exact nomatch (h.idle hchild hidle).1.symm.trans hqueue
        · obtain ⟨hstart, ⟨-, hrequest, hempty⟩ | ⟨hnone, -⟩⟩ := h.waiting call start hwaiting
          · obtain ⟨rfl, rfl⟩ := List.cons.inj (hqueue.symm.trans hrequest)
            refine ⟨(hkept.waiting call start hwaiting).1, Or.inr ⟨rfl, Or.inl ⟨reply, ?_, ?_⟩⟩⟩
            · show socket.toChild ++ [reply] = [reply]
              rw [hempty, List.nil_append]
            · exact parentHandle_answered hfds hstart hfd hreply
          · exact nomatch hnone.symm.trans hqueue
    · exact hdrop

end Parent

/-! ### A child receives its reply

This is where the condition is used. -/

/-- A reception that the condition allows gives a right report, and leaves nothing in the socket. -/
theorem BrokerSocket.InStep.receive {socket : BrokerSocket} {reception : Reception}
    {stores : List (List UInt8 × OpenFile)} {call : BrokerCall} {start : ℕ}
    {received : Option BrokerPacket} {rest : List BrokerPacket} (h : socket.InStep stores)
    (hwaiting : socket.waiting = some (call, start))
    (htake : reception.take socket.parentOpen socket.toChild = some (received, rest))
    (hok : socket.MayReceive reception) :
    (call.replied start received).Right stores ∧ socket.toParent = [] ∧ rest = [] := by
  obtain ⟨-, hqueues⟩ := h.waiting call start hwaiting
  -- a packet that was taken is the reply to the call
  have hreply : ∀ packet, socket.toChild = packet :: rest →
      socket.toParent = [] ∧ rest = [] ∧ call.Answered start stores packet := by
    intro packet hpacket
    obtain ⟨-, -, hempty⟩ | ⟨hnone, ⟨reply, hreply, hright⟩ | ⟨hempty, -⟩⟩ := hqueues
    · exact nomatch hempty.symm.trans hpacket
    · obtain ⟨rfl, rfl⟩ := List.cons.inj (hreply.symm.trans hpacket)
      exact ⟨hnone, rfl, hright⟩
    · exact nomatch hempty.symm.trans hpacket
  -- nothing is on its way when the parent has dropped the socket and the queue is empty
  have hgone : socket.Gets ∧ socket.parentOpen = false ∧ socket.toChild = [] →
      received = none → rest = [] →
      (call.replied start received).Right stores ∧ socket.toParent = [] ∧ rest = [] := by
    rintro ⟨hgets, hdropped, hempty⟩ rfl hrest
    refine ⟨hgets.right hwaiting stores, ?_, hrest⟩
    obtain ⟨hopen, -⟩ | ⟨hnone, -⟩ := hqueues
    · exact absurd (hdropped.symm.trans hopen) Bool.false_ne_true
    · exact hnone
  cases reception with
  | whole fdKept =>
    cases hchild : socket.toChild with
    | nil =>
      rw [hchild] at htake
      exact nomatch htake
    | cons packet queue =>
      rw [hchild] at htake
      obtain ⟨rfl, rfl⟩ := Prod.mk.inj (Option.some.inj htake)
      obtain ⟨hnone, hrest, hright⟩ := hreply packet hchild
      refine ⟨hright.right ?_, hnone, hrest⟩
      cases fdKept
      · exact Or.inl rfl
      · exact Or.inr rfl
  | truncated =>
    cases hchild : socket.toChild with
    | nil =>
      rw [hchild] at htake
      exact nomatch htake
    | cons packet queue =>
      rw [hchild] at htake
      obtain ⟨rfl, rfl⟩ := Prod.mk.inj (Option.some.inj htake)
      obtain ⟨hnone, hrest, -⟩ := hreply packet hchild
      exact ⟨BrokerSocket.Gets.right hok hwaiting stores, hnone, hrest⟩
  | failed =>
    obtain ⟨rfl, hrest⟩ := Prod.mk.inj (Option.some.inj htake)
    exact hgone hok rfl (hrest.symm.trans hok.2.2)
  | hangup =>
    rw [hok.2.2, hok.2.1] at htake
    obtain ⟨rfl, hrest⟩ := Prod.mk.inj (Option.some.inj htake)
    exact hgone hok rfl hrest.symm

/-! ### Steps and runs -/

namespace BrokerState

theorem inv_init : Inv {} :=
  ⟨logged_empty, fun _ ↦ ⟨fun _ _ ↦ ⟨rfl, rfl⟩, fun _ _ h ↦ nomatch h⟩,
    fun _ h ↦ absurd h List.not_mem_nil⟩

variable {st st' : BrokerState}

theorem inStep_setSocket {stores : List (List UInt8 × OpenFile)} {child : ℕ}
    {socket : BrokerSocket} (h : ∀ child, (st.sockets child).InStep stores)
    (hsocket : socket.InStep stores) (other : ℕ) :
    ((st.setSocket child socket).sockets other).InStep stores := by
  rw [setSocket]
  simp only
  rcases eq_or_ne other child with rfl | hne
  · rwa [Function.update_self]
  · rw [Function.update_of_ne hne]
    exact h other

/-- **Every step keeps the invariant.** -/
theorem Inv.step {step : BrokerStep} (h : st.Inv) (hok : RepliesReceived st step)
    (hstep : st.step step = some st') : st'.Inv := by
  cases step with
  | exchange child call sent =>
    simp only [BrokerState.step] at hstep
    split_ifs at hstep with hready hsent
    · obtain ⟨hchild, hidle, hopen⟩ := hready
      -- the child is idle, so nothing is left on its socket from before
      obtain ⟨hnoRequest, hnoReply⟩ := (h.sockets child).idle hchild hidle
      obtain rfl := Option.some.inj hstep
      refine ⟨h.fds, inStep_setSocket h.sockets ⟨fun _ hnone ↦ (nomatch hnone), ?_⟩, h.reports⟩
      rintro _ _ ⟨⟩
      refine ⟨le_rfl, Or.inl ⟨hopen hsent, ?_, hnoReply⟩⟩
      show (st.sockets child).toParent ++ [call.request] = [call.request]
      rw [hnoRequest, List.nil_append]
    -- an exchange that could not be sent reports failure, and nothing else
    · obtain rfl := Option.some.inj hstep
      refine ⟨h.fds, h.sockets, fun report hreport ↦ ?_⟩
      rcases List.mem_append.mp hreport with hreport | hreport
      · exact h.reports report hreport
      · obtain rfl := List.mem_singleton.mp hreport
        exact BrokerReport.right_of_status (by decide : (-1 : ℤ) ≠ 0) _
  | parentHandle child reception sent =>
    simp only [BrokerState.step] at hstep
    split_ifs at hstep
    obtain ⟨⟨received, rest⟩, htake, rfl⟩ := Option.map_eq_some_iff.mp hstep
    refine ⟨logged_parentHandle h.fds received,
      inStep_setSocket (fun other ↦ (h.sockets other).append _) ?_,
      fun report hreport ↦ (h.reports report hreport).append _⟩
    exact (h.sockets child).answer h.fds htake sent
  | receive child reception =>
    simp only [BrokerState.step] at hstep
    obtain ⟨⟨call, start⟩, hwaiting, hstep⟩ := Option.bind_eq_some_iff.mp hstep
    obtain ⟨⟨received, rest⟩, htake, rfl⟩ := Option.map_eq_some_iff.mp hstep
    -- the reply is the answer to the call that waits, and it was received whole
    obtain ⟨hright, hnoRequest, hnoReply⟩ := (h.sockets child).receive hwaiting htake hok
    refine ⟨h.fds, inStep_setSocket h.sockets ⟨fun _ _ ↦ ⟨hnoRequest, hnoReply⟩,
      fun _ _ hnone ↦ (nomatch hnone)⟩, fun report hreport ↦ ?_⟩
    rcases List.mem_append.mp hreport with hreport | hreport
    · exact h.reports report hreport
    · obtain rfl := List.mem_singleton.mp hreport
      exact hright
  | exit child =>
    obtain rfl := Option.some.inj hstep
    exact ⟨h.fds, inStep_setSocket h.sockets ⟨fun hclosed _ ↦ (nomatch hclosed),
      fun _ _ hnone ↦ (nomatch hnone)⟩, h.reports⟩

end BrokerState

/-- **What the broker reports is right.** In every run, over any number of children and any
interleaving of their calls with the parent, with packets and descriptors lost on either side, in
which a registration receives its reply whole and a call for a descriptor that receives none leaves
nothing in its socket: a registration reports success only if its descriptor was stored under its
kind and token, a descriptor handed out is the one last registered under its kind and token at some
point of the call, and no failed receive is reported as a success. -/
theorem broker_reports_right {steps : List BrokerStep} {st : BrokerState}
    (hrun : (ipcBroker.restrict RepliesReceived).run {} steps = some st) :
    ∀ report ∈ st.reports, report.Right st.stores := by
  refine (Machine.run_invariant _ (fun s step s' hs hstep ↦ ?_) BrokerState.inv_init hrun).reports
  obtain ⟨hok, hstep⟩ := Machine.step_restrict.mp hstep
  exact hs.step hok hstep

/-- A child registers a file and another one gets it. -/
theorem broker_reports_right_registerThenGet :
    ∃ st, (ipcBroker.restrict RepliesReceived).run {}
        [.exchange 0 (.registerFd 1 (Vector.replicate 16 9) 77) true,
          .parentHandle 0 (.whole true) true, .receive 0 (.whole true),
          .exchange 1 (.getFd 1 (Vector.replicate 16 9)) true,
          .parentHandle 1 (.whole true) true, .receive 1 (.whole true)] = some st ∧
      st.reports.map BrokerReport.getResult = [none, some 77] ∧
      ∀ report ∈ st.reports, report.Right st.stores := by
  have hpossible : ((ipcBroker.restrict RepliesReceived).run {}
      [.exchange 0 (.registerFd 1 (Vector.replicate 16 9) 77) true,
        .parentHandle 0 (.whole true) true, .receive 0 (.whole true),
        .exchange 1 (.getFd 1 (Vector.replicate 16 9)) true,
        .parentHandle 1 (.whole true) true, .receive 1 (.whole true)]).any fun st ↦
          st.reports.map BrokerReport.getResult == [none, some 77] := by
    decide
  obtain ⟨st, hrun, hst⟩ := (Option.any_eq_true _ _).mp hpossible
  exact ⟨st, hrun, beq_iff_eq.mp hst, broker_reports_right hrun⟩

/-- When the parent receives a registration cut short it drops the socket, and the child, which then
receives nothing, reports success with nothing stored. A reply left in the socket is taken for the
next one: a call for one token is answered with the descriptor of another. -/
theorem lostReply_reports_success :
    (ipcBroker.run {}
        [.exchange 0 (.registerFd 1 (Vector.replicate 16 9) 77) true,
          .parentHandle 0 .truncated true, .receive 0 .hangup]).map
        (fun st ↦ (st.reports.map BrokerReport.registerResult, st.stores)) = some ([0], []) ∧
      (ipcBroker.run {}
        [.exchange 0 (.registerFd 1 (Vector.replicate 16 9) 77) true,
          .parentHandle 0 (.whole true) true, .receive 0 (.whole true),
          .exchange 1 (.getFd 1 (Vector.replicate 16 9)) true,
          .parentHandle 1 (.whole true) true, .receive 1 .failed,
          .exchange 1 (.getFd 1 (Vector.replicate 16 8)) true, .receive 1 (.whole true)]).map
        (fun st ↦ st.reports.map BrokerReport.getResult) = some [none, none, some 77] := by
  decide

end Lupine
