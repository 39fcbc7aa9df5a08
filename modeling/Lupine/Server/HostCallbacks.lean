import Lupine.Cuda
import Lupine.Foundation.Machine

/-!
# Host callbacks and the inbound stream

A host function of the client runs when its stream comes to it: the driver calls
`lupine_graph_host_callback` or `lupine_stream_callback`, which sends a request to the client and
waits for the response. The response comes over the same stream as the client's requests, in the
order in which the client sent them, and the dispatcher reads one frame at a time: the frame is
reserved, for the worker of a lane or for the thread of a callback, until `rpc_read_end`.

## What waits for what

A CUDA call of a worker can wait until the callbacks before it on its stream have returned. A lane
has room for one request behind the one that its worker handles, and that request has the inbound
stream while it waits. When the worker waits for a callback whose response is behind that request,
neither goes on.

The requests here are those that the client sends without waiting for a response: nothing keeps it
from sending the next one on the same lane.

## What keeps the connection going

Whoever reads from the stream has it, which is an invariant of all runs. A deadlock needs a request
that is queued behind a worker while the worker waits for a callback whose response is unread. In a
run that queues nothing behind such a worker there is none, and once there is one no step ends it.
-/

namespace Lupine

open Foundation

/-! ## The state

Callbacks and requests are numbered by the order they come in. A lane has room for one opcode that
is ready behind the one that its worker handles. -/

inductive CallbackStage where
  /-- Its stream has not come to it. -/
  | queued
  /-- Its request is sent. -/
  | waiting
  /-- The client has sent the response. -/
  | responded
  /-- `rpc_read_start` has returned. -/
  | reading
  /-- `rpc_read_end` has returned. -/
  | returning
  deriving DecidableEq, Repr

/-- A host function in a stream. -/
structure HostCallback where
  stream : CUstream
  stage : CallbackStage := .queued
  deriving DecidableEq, Repr

/-- What the client sends: a request of a lane, or the response to the request of a callback. -/
inductive ClientFrame where
  | request (lane : ℕ)
  | response (callback : ℕ)
  deriving DecidableEq, Repr

/-- What the worker of a lane is at. Its handler has called `rpc_read_end` or not. -/
inductive WorkerState where
  | idle
  | running (readEnded : Bool)
  /-- A CUDA call that waits for the callbacks on the stream that come before a number. -/
  | blocked (readEnded : Bool) (stream : CUstream) (before : ℕ)
  deriving DecidableEq, Repr

/-- The handler has not given the inbound stream back. -/
def WorkerState.reads : WorkerState → Bool
  | idle => false
  | running readEnded | blocked readEnded _ _ => !readEnded

/-- `lupine_lane`. -/
structure WorkerLane where
  ready : Bool := false
  worker : WorkerState := .idle
  deriving DecidableEq, Repr

/-- The connection. Callbacks are numbered as they are enqueued. -/
structure CallbackState where
  /-- What the client has sent and the dispatcher has not read. -/
  inbound : List ClientFrame := []
  /-- `read_id`: the frame that is reserved. -/
  reserved : Option ClientFrame := none
  lanes : ℕ → WorkerLane := fun _ ↦ {}
  callbacks : ℕ → Option HostCallback := fun _ ↦ none
  enqueued : ℕ := 0

namespace CallbackState

variable (st : CallbackState)

def setLane (lane : ℕ) (next : WorkerLane) : CallbackState :=
  { st with lanes := Function.update st.lanes lane next }

def setCallback (id : ℕ) (callback : Option HostCallback) : CallbackState :=
  { st with callbacks := Function.update st.callbacks id callback }

/-- Every callback on the stream before a number has read its response. -/
def Settled (stream : CUstream) (before : ℕ) : Prop :=
  ∀ id < before, ∀ callback ∈ st.callbacks id,
    callback.stream = stream → callback.stage = .returning

instance (stream : CUstream) (before : ℕ) : Decidable (st.Settled stream before) :=
  inferInstanceAs (Decidable (∀ _ < _, _))

/-- No callback on the stream comes before a number. -/
def Returned (stream : CUstream) (before : ℕ) : Prop :=
  ∀ id < before, ∀ callback ∈ st.callbacks id, callback.stream ≠ stream

instance (stream : CUstream) (before : ℕ) : Decidable (st.Returned stream before) :=
  inferInstanceAs (Decidable (∀ _ < _, _))

/-- A worker that waits for callbacks waits for such as have read their responses. -/
def WorkerSettled : WorkerState → Prop
  | .blocked _ stream before => st.Settled stream before
  | .idle | .running _ => True

instance : ∀ worker, Decidable (st.WorkerSettled worker)
  | .blocked _ stream before => inferInstanceAs (Decidable (st.Settled stream before))
  | .idle | .running _ => inferInstanceAs (Decidable True)

/-- The worker of a lane waits for a callback. -/
def Awaits (lane callback : ℕ) : Prop :=
  ∃ readEnded stream before host, (st.lanes lane).worker = .blocked readEnded stream before ∧
    callback < before ∧ st.callbacks callback = some host ∧ host.stream = stream

/-- **The deadlock.** The response of a callback lies unread, and the stream is reserved for a
request that is queued behind the worker that waits for the callback. -/
def Deadlocked : Prop :=
  ∃ lane callback, st.Awaits lane callback ∧ .response callback ∈ st.inbound ∧
    (st.lanes lane).ready ∧ st.reserved = some (.request lane)

end CallbackState

/-! ## Steps

The client sends frames whenever it likes. The dispatcher takes a frame only while nobody has the
stream. -/

/-- A step of the client, of the dispatcher, of a worker or of the thread of a callback. -/
inductive CallbackStep where
  | send (lane : ℕ)
  | respond (id : ℕ)
  /-- The dispatcher reads a frame. -/
  | dispatch
  | take (lane : ℕ)
  | readEnd (lane : ℕ)
  /-- A CUDA call that puts a host function in a stream. -/
  | enqueue (lane : ℕ) (stream : CUstream)
  /-- A CUDA call waits for what is in its stream. -/
  | block (lane : ℕ) (stream : CUstream)
  | unblock (lane : ℕ)
  | finish (lane : ℕ)
  /-- The stream comes to a callback, which sends its request. -/
  | callbackStart (id : ℕ)
  | responseStart (id : ℕ)
  | responseEnd (id : ℕ)
  | callbackReturn (id : ℕ)
  deriving DecidableEq, Repr

def CallbackState.reserve (st : CallbackState) (rest : List ClientFrame) :
    ClientFrame → CallbackState
  | .request lane =>
    { st.setLane lane { st.lanes lane with ready := true } with
      inbound := rest, reserved := some (.request lane) }
  | .response id => { st with inbound := rest, reserved := some (.response id) }

/-- A callback goes from one stage to the next. -/
def CallbackState.callbackAt (st : CallbackState) (id : ℕ) (stage next : CallbackStage) :
    Option CallbackState :=
  match st.callbacks id with
  | some host =>
    if host.stage = stage then some (st.setCallback id (some { host with stage := next })) else none
  | none => none

def callbackStep (st : CallbackState) : CallbackStep → Option CallbackState
  | .send lane => some { st with inbound := st.inbound ++ [.request lane] }
  | .respond id =>
    (st.callbackAt id .waiting .responded).map fun next ↦
      { next with inbound := st.inbound ++ [.response id] }
  | .dispatch =>
    match st.reserved, st.inbound with
    | none, frame :: rest => some (st.reserve rest frame)
    | _, _ => none
  | .take lane =>
    if st.lanes lane = ⟨true, .idle⟩ then some (st.setLane lane ⟨false, .running false⟩) else none
  | .readEnd lane =>
    if (st.lanes lane).worker = .running false then
      some { st.setLane lane { st.lanes lane with worker := .running true } with reserved := none }
    else none
  | .enqueue lane stream =>
    match (st.lanes lane).worker with
    | .running _ => some { st.setCallback st.enqueued (some { stream }) with
        enqueued := st.enqueued + 1 }
    | _ => none
  | .block lane stream =>
    match (st.lanes lane).worker with
    | .running readEnded => some (st.setLane lane
        { st.lanes lane with worker := .blocked readEnded stream st.enqueued })
    | _ => none
  | .unblock lane =>
    match (st.lanes lane).worker with
    | .blocked readEnded stream before =>
      if st.Returned stream before then
        some (st.setLane lane { st.lanes lane with worker := .running readEnded })
      else none
    | _ => none
  | .finish lane =>
    if (st.lanes lane).worker = .running true then
      some (st.setLane lane { st.lanes lane with worker := .idle })
    else none
  | .callbackStart id =>
    match st.callbacks id with
    | some host =>
      -- a stream runs one host function at a time, in order
      if st.Returned host.stream id then st.callbackAt id .queued .waiting else none
    | none => none
  | .responseStart id =>
    if st.reserved = some (.response id) then st.callbackAt id .responded .reading else none
  | .responseEnd id =>
    (st.callbackAt id .reading .returning).map fun next ↦ { next with reserved := none }
  | .callbackReturn id =>
    match st.callbacks id with
    | some host => if host.stage = .returning then some (st.setCallback id none) else none
    | none => none

def callbackMachine : Machine CallbackState CallbackStep := ⟨callbackStep⟩

/-- The steps after which no request is queued behind a worker that waits for a callback with an
unread response: the dispatcher reads no request for the lane of such a worker, and no worker begins
to wait so while a request is queued behind it. -/
def NothingQueued (st : CallbackState) : CallbackStep → Prop
  | .dispatch =>
    match st.inbound with
    | .request lane :: _ => st.WorkerSettled (st.lanes lane).worker
    | _ => True
  | .block lane stream => (st.lanes lane).ready → st.Settled stream st.enqueued
  | _ => True

instance (st : CallbackState) (step : CallbackStep) : Decidable (NothingQueued st step) :=
  match step with
  | .dispatch =>
    match st with
    | ⟨.request _ :: _, _, _, _, _⟩ => inferInstanceAs (Decidable (CallbackState.WorkerSettled _ _))
    | ⟨.response _ :: _, _, _, _, _⟩ | ⟨[], _, _, _, _⟩ => inferInstanceAs (Decidable True)
  | .block .. => inferInstanceAs (Decidable (_ → _))
  | .send _ | .respond _ | .take _ | .readEnd _ | .enqueue .. | .unblock _ | .finish _
  | .callbackStart _ | .responseStart _ | .responseEnd _ | .callbackReturn _ =>
    inferInstanceAs (Decidable True)

variable {st st' : CallbackState}

theorem CallbackState.callbackAt_eq_some {id : ℕ} {stage next : CallbackStage} :
    st.callbackAt id stage next = some st' ↔ ∃ stream, st.callbacks id = some ⟨stream, stage⟩ ∧
      st' = st.setCallback id (some ⟨stream, next⟩) := by
  rw [callbackAt]
  cases hhost : st.callbacks id with
  | none => simp
  | some host =>
    obtain ⟨stream, old⟩ := host
    rw [Option.ite_some_none_eq_some]
    constructor
    · rintro ⟨rfl, rfl⟩
      exact ⟨stream, rfl, rfl⟩
    · rintro ⟨stream', heq, rfl⟩
      obtain ⟨rfl, rfl⟩ := HostCallback.mk.inj (Option.some.inj heq)
      exact ⟨rfl, rfl⟩

/-! ## Who has the stream

A lane that has a request queued, or reads one, has the stream, and no other lane and no callback
has it then. A response that nobody has read yet is one that its callback waits for. -/

/-- A lane that has a request queued or reads one has the inbound stream. -/
structure LaneOk (reserved : Option ClientFrame) (enqueued lane : ℕ) (entry : WorkerLane) :
    Prop where
  ready : entry.ready → reserved = some (.request lane)
  reads : entry.worker.reads → reserved = some (.request lane) ∧ entry.ready = false
  blocked : ∀ readEnded stream before, entry.worker = .blocked readEnded stream before →
    before ≤ enqueued

/-- A response is on its way when the client has sent it and the callback has not read it. -/
def ResponseOk (reserved : Option ClientFrame) (inbound : List ClientFrame) (id : ℕ) :
    Option HostCallback → Prop
  | some ⟨_, .responded⟩ => (reserved.toList ++ inbound).count (.response id) = 1
  | some ⟨_, .reading⟩ => reserved = some (.response id) ∧ inbound.count (.response id) = 0
  | _ => (reserved.toList ++ inbound).count (.response id) = 0

/-- Whoever reads from the stream has it, and responses are sent and read once. -/
structure StreamInv (st : CallbackState) : Prop where
  lanes : ∀ lane, LaneOk st.reserved st.enqueued lane (st.lanes lane)
  callbacks : ∀ id, ResponseOk st.reserved st.inbound id (st.callbacks id)
  fresh : ∀ id, st.enqueued ≤ id → st.callbacks id = none

theorem LaneOk.congr {reserved reserved' : Option ClientFrame} {enqueued enqueued' lane : ℕ}
    {entry : WorkerLane} (h : LaneOk reserved enqueued lane entry)
    (hreserved : reserved ≠ some (.request lane)) (hle : enqueued ≤ enqueued') :
    LaneOk reserved' enqueued' lane entry where
  ready hready := absurd (h.ready hready) hreserved
  reads hreads := absurd (h.reads hreads).1 hreserved
  blocked readEnded stream before heq := Nat.le_trans (h.blocked readEnded stream before heq) hle

theorem ResponseOk.responded {reserved : Option ClientFrame} {inbound : List ClientFrame} {id : ℕ}
    {host : HostCallback} (h : ResponseOk reserved inbound id (some host))
    (hmem : .response id ∈ inbound) : host.stage = .responded := by
  have hpos := List.count_pos_iff.mpr hmem
  obtain ⟨stream, stage⟩ := host
  cases stage with
  | responded => rfl
  | reading => exact absurd h.2 (Nat.ne_of_gt hpos)
  | queued | waiting | returning =>
    simp only [ResponseOk, List.count_append] at h
    omega

theorem ResponseOk.congr {reserved reserved' : Option ClientFrame}
    {inbound inbound' : List ClientFrame} {id : ℕ} {host : Option HostCallback}
    (h : ResponseOk reserved inbound id host)
    (hcount : (reserved'.toList ++ inbound').count (.response id)
      = (reserved.toList ++ inbound).count (.response id))
    (hreading : reserved = some (.response id) → reserved' = some (.response id) ∧
      inbound'.count (.response id) = inbound.count (.response id)) :
    ResponseOk reserved' inbound' id host := by
  match host, h with
  | some ⟨_, .responded⟩, h => exact hcount.trans h
  | some ⟨_, .reading⟩, h => exact ⟨(hreading h.1).1, (hreading h.1).2.trans h.2⟩
  | none, h | some ⟨_, .queued⟩, h | some ⟨_, .waiting⟩, h | some ⟨_, .returning⟩, h =>
    exact hcount.trans h

theorem count_response_of_ne {i id : ℕ} (hne : i ≠ id) :
    [ClientFrame.response id].count (.response i) = 0 :=
  List.count_eq_zero.mpr fun hmem ↦ hne (ClientFrame.response.inj (List.mem_singleton.mp hmem))

namespace StreamInv

theorem init : StreamInv {} where
  lanes _ := ⟨(nomatch ·), (nomatch ·), fun _ _ _ h ↦ nomatch h⟩
  callbacks _ := rfl
  fresh _ _ := rfl

theorem setLane (h : StreamInv st) {lane : ℕ} {next : WorkerLane}
    (hnext : LaneOk st.reserved st.enqueued lane next) : StreamInv (st.setLane lane next) where
  lanes := (Function.forall_update_iff _ fun l entry ↦ LaneOk st.reserved st.enqueued l entry).mpr
    ⟨hnext, fun l _ ↦ h.lanes l⟩
  callbacks := h.callbacks
  fresh := h.fresh

theorem setCallback (h : StreamInv st) {id : ℕ} {host : Option HostCallback}
    (hhost : ResponseOk st.reserved st.inbound id host) (hid : id < st.enqueued) :
    StreamInv (st.setCallback id host) where
  lanes := h.lanes
  callbacks := (Function.forall_update_iff _ fun i host ↦
    ResponseOk st.reserved st.inbound i host).mpr ⟨hhost, fun i _ ↦ h.callbacks i⟩
  fresh i hi := (Function.update_of_ne (Nat.ne_of_gt (Nat.lt_of_lt_of_le hid hi)) _ _).trans
    (h.fresh i hi)

theorem lt_enqueued (h : StreamInv st) {id : ℕ} {host : HostCallback}
    (hhost : st.callbacks id = some host) : id < st.enqueued := by
  by_contra hle
  rw [h.fresh id (Nat.not_lt.mp hle)] at hhost
  exact nomatch hhost

theorem append (h : StreamInv st) (frame : ClientFrame)
    (hframe : ∀ id, frame ≠ .response id) :
    StreamInv { st with inbound := st.inbound ++ [frame] } where
  lanes := h.lanes
  callbacks id := by
    have hcount : List.count (.response id) [frame] = 0 :=
      List.count_eq_zero.mpr fun hmem ↦ hframe id (List.mem_singleton.mp hmem).symm
    refine (h.callbacks id).congr ?_ fun hreserved ↦ ⟨hreserved, ?_⟩
    · rw [← List.append_assoc, List.count_append, hcount, Nat.add_zero]
    · rw [List.count_append, hcount, Nat.add_zero]
  fresh := h.fresh

theorem respond (h : StreamInv st) {id : ℕ} {stream : CUstream}
    (hhost : st.callbacks id = some ⟨stream, .waiting⟩) :
    StreamInv { st.setCallback id (some ⟨stream, .responded⟩) with
      inbound := st.inbound ++ [.response id] } where
  lanes := h.lanes
  callbacks := by
    refine (Function.forall_update_iff _ fun i host ↦
      ResponseOk st.reserved (st.inbound ++ [.response id]) i host).mpr ⟨?_, fun i hne ↦ ?_⟩
    · have hnone := h.callbacks id
      rw [hhost] at hnone
      show (st.reserved.toList ++ (st.inbound ++ [ClientFrame.response id])).count
        (ClientFrame.response id) = 1
      rw [← List.append_assoc, List.count_append, hnone, List.count_singleton_self]
    · have hcount := count_response_of_ne hne
      refine (h.callbacks i).congr ?_ fun hreserved ↦ ⟨hreserved, ?_⟩
      · rw [← List.append_assoc, List.count_append, hcount, Nat.add_zero]
      · rw [List.count_append, hcount, Nat.add_zero]
  fresh i hi := (Function.update_of_ne
    (Nat.ne_of_gt (Nat.lt_of_lt_of_le (h.lt_enqueued hhost) hi)) _ _).trans (h.fresh i hi)

/-- The dispatcher takes a frame from the stream, which nobody has. -/
theorem reserve (h : StreamInv st) {frame : ClientFrame} {rest : List ClientFrame}
    (hfree : st.reserved = none) (hinbound : st.inbound = frame :: rest) :
    StreamInv (st.reserve rest frame) := by
  have hlanes : ∀ lane, LaneOk (some frame) st.enqueued lane (st.lanes lane) := fun lane ↦
    (h.lanes lane).congr (by simp [hfree]) le_rfl
  have hcallbacks : ∀ id, ResponseOk (some frame) rest id (st.callbacks id) := by
    intro id
    refine (h.callbacks id).congr ?_ fun hreserved ↦ absurd (hfree.symm.trans hreserved) (by simp)
    rw [hfree, hinbound]
    rfl
  cases frame with
  | request lane =>
    have hidle : (st.lanes lane).worker.reads = false := eq_false_of_ne_true fun hreads ↦
      absurd (hfree.symm.trans ((h.lanes lane).reads hreads).1) (by simp)
    refine ⟨?_, hcallbacks, h.fresh⟩
    refine (Function.forall_update_iff _ fun l entry ↦
      LaneOk (some (.request lane)) st.enqueued l entry).mpr ⟨⟨fun _ ↦ rfl, ?_, ?_⟩, ?_⟩
    · exact fun hreads ↦ absurd (hidle.symm.trans hreads) (by simp)
    · exact (h.lanes lane).blocked
    · exact fun l _ ↦ hlanes l
  | response id => exact ⟨hlanes, hcallbacks, h.fresh⟩

theorem readEnd (h : StreamInv st) {lane : ℕ} (hworker : (st.lanes lane).worker = .running false) :
    StreamInv { st.setLane lane { st.lanes lane with worker := .running true } with
      reserved := none } := by
  obtain ⟨hreserved, hready⟩ := (h.lanes lane).reads (by rw [hworker]; rfl)
  refine ⟨?_, fun id ↦ ?_, h.fresh⟩
  · refine (Function.forall_update_iff _ fun l entry ↦
      LaneOk none st.enqueued l entry).mpr ⟨⟨fun hl ↦ ?_, (nomatch ·), ?_⟩, fun l hne ↦ ?_⟩
    · exact absurd (hready.symm.trans hl) (by simp)
    · exact fun _ _ _ heq ↦ nomatch heq
    · refine (h.lanes l).congr ?_ le_rfl
      rw [hreserved]
      simpa using hne.symm
  · refine (h.callbacks id).congr ?_ fun hid ↦ absurd (hreserved.symm.trans hid) (by simp)
    rw [hreserved]
    exact (List.count_cons_of_ne (by simp)).symm

theorem enqueue (h : StreamInv st) (stream : CUstream) :
    StreamInv { st.setCallback st.enqueued (some { stream }) with
      enqueued := st.enqueued + 1 } where
  lanes lane := ⟨(h.lanes lane).ready, (h.lanes lane).reads, fun readEnded stream before heq ↦
    Nat.le_succ_of_le ((h.lanes lane).blocked readEnded stream before heq)⟩
  callbacks := by
    refine (Function.forall_update_iff _ fun i host ↦
      ResponseOk st.reserved st.inbound i host).mpr ⟨?_, fun i _ ↦ h.callbacks i⟩
    have hnone := h.callbacks st.enqueued
    rwa [h.fresh _ le_rfl] at hnone
  fresh i hi := (Function.update_of_ne (Nat.ne_of_gt hi) _ _).trans
    (h.fresh i (Nat.le_of_succ_le hi))

theorem responseStart (h : StreamInv st) {id : ℕ} {stream : CUstream}
    (hreserved : st.reserved = some (.response id))
    (hhost : st.callbacks id = some ⟨stream, .responded⟩) :
    StreamInv (st.setCallback id (some ⟨stream, .reading⟩)) := by
  have honce := h.callbacks id
  rw [hhost, hreserved] at honce
  refine h.setCallback ⟨hreserved, ?_⟩ (h.lt_enqueued hhost)
  simpa [ResponseOk] using honce

theorem responseEnd (h : StreamInv st) {id : ℕ} {stream : CUstream}
    (hhost : st.callbacks id = some ⟨stream, .reading⟩) :
    StreamInv { st.setCallback id (some ⟨stream, .returning⟩) with reserved := none } := by
  have hreading := h.callbacks id
  rw [hhost] at hreading
  obtain ⟨hreserved, hread⟩ := hreading
  refine ⟨fun lane ↦ (h.lanes lane).congr (by simp [hreserved]) le_rfl, ?_, ?_⟩
  · refine (Function.forall_update_iff _ fun i host ↦
      ResponseOk none st.inbound i host).mpr ⟨hread, fun i hne ↦ ?_⟩
    refine (h.callbacks i).congr ?_ fun hi ↦ ?_
    · rw [hreserved]
      exact (List.count_cons_of_ne (by simpa using hne.symm)).symm
    · rw [hreserved] at hi
      exact absurd hi (by simpa using hne.symm)
  · exact fun i hi ↦ (Function.update_of_ne
      (Nat.ne_of_gt (Nat.lt_of_lt_of_le (h.lt_enqueued hhost) hi)) _ _).trans (h.fresh i hi)

/-- **One step.** Every step keeps the stream with whoever has it. -/
theorem step (h : StreamInv st) {step : CallbackStep} (hstep : callbackStep st step = some st') :
    StreamInv st' := by
  cases step with
  | send lane =>
    obtain rfl := Option.some.inj hstep
    exact h.append (.request lane) (by simp)
  | respond id =>
    obtain ⟨next, hnext, rfl⟩ := Option.map_eq_some_iff.mp hstep
    obtain ⟨stream, hhost, rfl⟩ := CallbackState.callbackAt_eq_some.mp hnext
    exact h.respond hhost
  | dispatch =>
    simp only [callbackStep] at hstep
    split at hstep
    next frame rest hfree hinbound =>
      obtain rfl := Option.some.inj hstep
      exact h.reserve hfree hinbound
    next => exact nomatch hstep
  | take lane =>
    obtain ⟨hlane, rfl⟩ := Option.ite_some_none_eq_some.mp hstep
    -- the frame that the lane takes is the one that the dispatcher has reserved
    have hreserved := (h.lanes lane).ready (by rw [hlane])
    exact h.setLane ⟨(nomatch ·), fun _ ↦ ⟨hreserved, rfl⟩, fun _ _ _ heq ↦ nomatch heq⟩
  | readEnd lane =>
    obtain ⟨hworker, rfl⟩ := Option.ite_some_none_eq_some.mp hstep
    exact h.readEnd hworker
  | enqueue lane stream =>
    simp only [callbackStep] at hstep
    split at hstep
    next =>
      obtain rfl := Option.some.inj hstep
      exact h.enqueue stream
    next => exact nomatch hstep
  | block lane stream =>
    simp only [callbackStep] at hstep
    split at hstep
    next readEnded hworker =>
      obtain rfl := Option.some.inj hstep
      have hreads := (h.lanes lane).reads
      rw [hworker] at hreads
      -- what the lane waits for has been enqueued before, so it is below the bound
      refine h.setLane ⟨(h.lanes lane).ready, hreads, fun _ _ _ heq ↦ ?_⟩
      obtain ⟨-, -, rfl⟩ := WorkerState.blocked.inj heq
      exact le_rfl
    next => exact nomatch hstep
  | unblock lane =>
    simp only [callbackStep] at hstep
    split at hstep
    next readEnded stream before hworker =>
      obtain ⟨-, rfl⟩ := Option.ite_some_none_eq_some.mp hstep
      have hreads := (h.lanes lane).reads
      rw [hworker] at hreads
      exact h.setLane ⟨(h.lanes lane).ready, hreads, fun _ _ _ heq ↦ nomatch heq⟩
    next => exact nomatch hstep
  | finish lane =>
    obtain ⟨-, rfl⟩ := Option.ite_some_none_eq_some.mp hstep
    exact h.setLane ⟨(h.lanes lane).ready, (nomatch ·), fun _ _ _ heq ↦ nomatch heq⟩
  | callbackStart id =>
    simp only [callbackStep] at hstep
    split at hstep
    next =>
      obtain ⟨-, hstart⟩ := Option.ite_none_right_eq_some.mp hstep
      obtain ⟨stream, hhost, rfl⟩ := CallbackState.callbackAt_eq_some.mp hstart
      have hok := h.callbacks id
      rw [hhost] at hok
      exact h.setCallback hok (h.lt_enqueued hhost)
    next => exact nomatch hstep
  | responseStart id =>
    -- the response takes over the reservation, and gives it back when it has been read
    obtain ⟨hreserved, hstart⟩ := Option.ite_none_right_eq_some.mp hstep
    obtain ⟨stream, hhost, rfl⟩ := CallbackState.callbackAt_eq_some.mp hstart
    exact h.responseStart hreserved hhost
  | responseEnd id =>
    obtain ⟨next, hnext, rfl⟩ := Option.map_eq_some_iff.mp hstep
    obtain ⟨stream, hhost, rfl⟩ := CallbackState.callbackAt_eq_some.mp hnext
    exact h.responseEnd hhost
  | callbackReturn id =>
    simp only [callbackStep] at hstep
    split at hstep
    next host hhost =>
      obtain ⟨hstage, rfl⟩ := Option.ite_some_none_eq_some.mp hstep
      have hok := h.callbacks id
      obtain ⟨stream, stage⟩ := host
      obtain rfl := hstage
      rw [hhost] at hok
      exact h.setCallback hok (h.lt_enqueued hhost)
    next => exact nomatch hstep

end StreamInv

/-! ## Nothing is queued behind a worker that waits

Callbacks go on, are enqueued and return; one that has read its response stays so until it has
returned. So a worker that has nothing to wait for gets nothing to wait for by what others do. -/

/-- What a worker waits for has read its response if a request is queued behind it. -/
def CallbackState.QueueSettled (st : CallbackState) : Prop :=
  ∀ lane, (st.lanes lane).ready → st.WorkerSettled (st.lanes lane).worker

/-- A callback that has read its response stays so until it has returned. -/
theorem CallbackState.Settled.mono {stream : CUstream} {before : ℕ} (h : st.Settled stream before)
    (hcallbacks : ∀ id < before, ∀ host, st'.callbacks id = some host →
      ∃ old, st.callbacks id = some old ∧ old.stream = host.stream ∧
        (old.stage = .returning → host.stage = .returning)) : st'.Settled stream before := by
  rintro id hid host hhost rfl
  obtain ⟨old, hold, hstream, hstage⟩ := hcallbacks id hid host hhost
  exact hstage (h id hid old hold hstream)

namespace CallbackState.QueueSettled

theorem mono (h : st.QueueSettled) (hinv : StreamInv st) (hlanes : st'.lanes = st.lanes)
    (hcallbacks : ∀ id < st.enqueued, ∀ host, st'.callbacks id = some host →
      ∃ old, st.callbacks id = some old ∧ old.stream = host.stream ∧
        (old.stage = .returning → host.stage = .returning)) : st'.QueueSettled := by
  intro lane hready
  rw [hlanes] at hready ⊢
  have hsettled := h lane hready
  have hblocked := (hinv.lanes lane).blocked
  cases hworker : (st.lanes lane).worker with
  | idle => trivial
  | running readEnded => trivial
  | blocked readEnded stream before =>
    rw [hworker] at hsettled hblocked
    exact hsettled.mono fun id hid ↦
      hcallbacks id (Nat.lt_of_lt_of_le hid (hblocked _ _ _ rfl))

theorem setCallback (h : st.QueueSettled) (hinv : StreamInv st) {id : ℕ} {stream : CUstream}
    {stage next : CallbackStage} (hhost : st.callbacks id = some ⟨stream, stage⟩)
    (hstage : stage = .returning → next = .returning) {inbound : List ClientFrame}
    {reserved : Option ClientFrame} :
    { st.setCallback id (some ⟨stream, next⟩) with inbound, reserved }.QueueSettled := by
  refine h.mono hinv rfl fun i _ host hi ↦ ?_
  rcases eq_or_of_update hi with ⟨rfl, heq⟩ | ⟨-, hold⟩
  · obtain rfl := Option.some.inj heq
    exact ⟨_, hhost, rfl, hstage⟩
  · exact ⟨host, hold, rfl, fun hreturning ↦ hreturning⟩

theorem setLane (h : st.QueueSettled) {lane : ℕ} {next : WorkerLane}
    (hlanes : st'.lanes = Function.update st.lanes lane next)
    (hcallbacks : st'.callbacks = st.callbacks)
    (hnext : next.ready → st.WorkerSettled next.worker) : st'.QueueSettled := by
  obtain ⟨inbound, reserved, lanes, callbacks, enqueued⟩ := st'
  obtain rfl : lanes = _ := hlanes
  obtain rfl : callbacks = _ := hcallbacks
  exact (Function.forall_update_iff _ fun _ (entry : WorkerLane) ↦
    entry.ready = true → st.WorkerSettled entry.worker).mpr ⟨hnext, fun l _ ↦ h l⟩

/-- **One step.** A step that queues nothing behind a worker that waits keeps it so. -/
theorem step (h : st.QueueSettled) (hinv : StreamInv st) {step : CallbackStep}
    (hok : NothingQueued st step) (hstep : callbackStep st step = some st') :
    st'.QueueSettled := by
  cases step with
  | send lane =>
    obtain rfl := Option.some.inj hstep
    exact h
  | respond id =>
    obtain ⟨next, hnext, rfl⟩ := Option.map_eq_some_iff.mp hstep
    obtain ⟨stream, hhost, rfl⟩ := CallbackState.callbackAt_eq_some.mp hnext
    exact h.setCallback hinv hhost (nomatch ·)
  | dispatch =>
    simp only [callbackStep] at hstep
    split at hstep
    next frame rest hfree hinbound =>
      obtain rfl := Option.some.inj hstep
      -- if the lane waits for a stream, nothing is left to be done in it, by the condition on the
      -- step
      simp only [NothingQueued, hinbound] at hok
      cases frame with
      | request lane => exact h.setLane rfl rfl fun _ ↦ hok
      | response id => exact h
    next => exact nomatch hstep
  | take lane =>
    obtain ⟨-, rfl⟩ := Option.ite_some_none_eq_some.mp hstep
    exact h.setLane rfl rfl fun _ ↦ trivial
  | readEnd lane =>
    obtain ⟨-, rfl⟩ := Option.ite_some_none_eq_some.mp hstep
    exact h.setLane rfl rfl fun _ ↦ trivial
  | enqueue lane stream =>
    simp only [callbackStep] at hstep
    split at hstep
    next =>
      obtain rfl := Option.some.inj hstep
      refine h.mono hinv rfl fun id hid host hhost ↦ ⟨host, ?_, rfl, fun hreturning ↦ hreturning⟩
      exact (Function.update_of_ne (Nat.ne_of_lt hid) _ _).symm.trans hhost
    next => exact nomatch hstep
  | block lane stream =>
    simp only [callbackStep] at hstep
    split at hstep
    next =>
      obtain rfl := Option.some.inj hstep
      exact h.setLane rfl rfl hok
    next => exact nomatch hstep
  | unblock lane =>
    simp only [callbackStep] at hstep
    split at hstep
    next =>
      obtain ⟨-, rfl⟩ := Option.ite_some_none_eq_some.mp hstep
      exact h.setLane rfl rfl fun _ ↦ trivial
    next => exact nomatch hstep
  | finish lane =>
    obtain ⟨-, rfl⟩ := Option.ite_some_none_eq_some.mp hstep
    exact h.setLane rfl rfl fun _ ↦ trivial
  | callbackStart id =>
    simp only [callbackStep] at hstep
    split at hstep
    next =>
      obtain ⟨-, hstart⟩ := Option.ite_none_right_eq_some.mp hstep
      obtain ⟨stream, hhost, rfl⟩ := CallbackState.callbackAt_eq_some.mp hstart
      exact h.setCallback hinv hhost (nomatch ·)
    next => exact nomatch hstep
  | responseStart id =>
    obtain ⟨-, hstart⟩ := Option.ite_none_right_eq_some.mp hstep
    obtain ⟨stream, hhost, rfl⟩ := CallbackState.callbackAt_eq_some.mp hstart
    exact h.setCallback hinv hhost (nomatch ·)
  | responseEnd id =>
    obtain ⟨next, hnext, rfl⟩ := Option.map_eq_some_iff.mp hstep
    obtain ⟨stream, hhost, rfl⟩ := CallbackState.callbackAt_eq_some.mp hnext
    exact h.setCallback hinv hhost fun _ ↦ rfl
  | callbackReturn id =>
    simp only [callbackStep] at hstep
    split at hstep
    next =>
      obtain ⟨-, rfl⟩ := Option.ite_some_none_eq_some.mp hstep
      refine h.mono hinv rfl fun i _ host hi ↦ ?_
      rcases eq_or_of_update hi with ⟨-, heq⟩ | ⟨-, hold⟩
      · exact nomatch heq
      · exact ⟨host, hold, rfl, fun hreturning ↦ hreturning⟩
    next => exact nomatch hstep

end CallbackState.QueueSettled

/-- **Host callbacks.** In every run in which no request is queued behind a worker that waits for a
callback with an unread response, no state is a deadlock. -/
theorem hostCallbacks_not_deadlocked (steps : List CallbackStep) (st : CallbackState)
    (hrun : (callbackMachine.restrict NothingQueued).run {} steps = some st) : ¬st.Deadlocked := by
  have hinv : StreamInv st ∧ st.QueueSettled := by
    refine Machine.run_invariant _ (I := fun st ↦ StreamInv st ∧ st.QueueSettled)
      (fun s a s' hs hstep ↦ ?_) ⟨StreamInv.init, fun _ hready ↦ nomatch hready⟩ hrun
    obtain ⟨hok, hstep⟩ := Machine.step_restrict.mp hstep
    exact ⟨hs.1.step hstep, hs.2.step hs.1 hok hstep⟩
  rintro ⟨lane, callback, ⟨readEnded, stream, before, host, hworker, hlt, hhost, hstream⟩,
    hinbound, hready, -⟩
  have hresponded := hinv.1.callbacks callback
  rw [hhost] at hresponded
  have hsettled := hinv.2 lane hready
  rw [hworker] at hsettled
  have hreturning := hsettled callback hlt host hhost hstream
  exact absurd (hreturning.symm.trans (hresponded.responded hinbound)) (by decide)

/-- A host function is put in a stream, its callback runs while the worker waits for it, and the
next request of the lane is sent when it has returned. -/
def waitsForCallback : List CallbackStep :=
  [.send 7, .dispatch, .take 7, .readEnd 7, .enqueue 7 1, .callbackStart 0, .block 7 1, .respond 0,
    .dispatch, .responseStart 0, .responseEnd 0, .send 7, .dispatch, .callbackReturn 0, .unblock 7]

theorem hostCallbacks_not_deadlocked_waitsForCallback :
    ∃ st, (callbackMachine.restrict NothingQueued).run {} waitsForCallback = some st ∧
      (st.lanes 7).ready ∧ ¬st.Deadlocked := by
  have hrun : ∃ st, (callbackMachine.restrict NothingQueued).run {} waitsForCallback = some st ∧
      (st.lanes 7).ready := ⟨_, rfl, rfl⟩
  obtain ⟨st, hrun, hready⟩ := hrun
  exact ⟨st, hrun, hready, hostCallbacks_not_deadlocked waitsForCallback st hrun⟩

/-! ## The deadlock

The dispatcher waits for the stream, the worker for the callback, and the callback for its
response. Other lanes and other callbacks may go on. -/

theorem CallbackState.Awaits.setCallback {lane callback id : ℕ} {stream : CUstream}
    {stage next : CallbackStage} (h : st.Awaits lane callback)
    (hhost : st.callbacks id = some ⟨stream, stage⟩) {inbound : List ClientFrame} :
    { st.setCallback id (some ⟨stream, next⟩) with inbound }.Awaits lane callback := by
  obtain ⟨readEnded, s, before, host, hworker, hlt, hcallback, hstream⟩ := h
  rcases eq_or_ne callback id with rfl | hne
  · obtain rfl := Option.some.inj (hhost.symm.trans hcallback)
    exact ⟨readEnded, s, before, ⟨stream, next⟩, hworker, hlt, Function.update_self _ _ _, hstream⟩
  · exact ⟨readEnded, s, before, host, hworker, hlt,
      (Function.update_of_ne hne _ _).trans hcallback, hstream⟩

theorem CallbackState.Deadlocked.setLane {lane callback other : ℕ} {next : WorkerLane}
    (hawaits : st.Awaits lane callback) (hinbound : .response callback ∈ st.inbound)
    (hready : (st.lanes lane).ready) (hreserved : st.reserved = some (.request lane))
    (hother : (st.lanes lane).worker ≠ (st.lanes other).worker) :
    (st.setLane other next).Deadlocked := by
  obtain ⟨readEnded, s, before, host, hworker, hlt, hcallback, hstream⟩ := hawaits
  have hsame : (st.setLane other next).lanes lane = st.lanes lane :=
    Function.update_of_ne (by rintro rfl; exact hother rfl) _ _
  exact ⟨lane, callback, ⟨readEnded, s, before, host, hsame ▸ hworker, hlt, hcallback, hstream⟩,
    hinbound, hsame ▸ hready, hreserved⟩

/-- **Nothing goes on.** No step ends a deadlock. -/
theorem CallbackState.Deadlocked.step (h : st.Deadlocked) (hinv : StreamInv st)
    {step : CallbackStep} (hstep : callbackStep st step = some st') : st'.Deadlocked := by
  obtain ⟨lane, callback, hawaits, hinbound, hready, hreserved⟩ := h
  obtain ⟨readEnded, stream, before, host, hworker, hlt, hcallback, hstream⟩ := id hawaits
  have hresponded : host.stage = .responded := by
    have hok := hinv.callbacks callback
    rw [hcallback] at hok
    exact hok.responded hinbound
  cases step with
  | send other =>
    obtain rfl := Option.some.inj hstep
    exact ⟨lane, callback, hawaits, List.mem_append_left _ hinbound, hready, hreserved⟩
  | respond id =>
    obtain ⟨next, hnext, rfl⟩ := Option.map_eq_some_iff.mp hstep
    obtain ⟨stream, hhost, rfl⟩ := CallbackState.callbackAt_eq_some.mp hnext
    exact ⟨lane, callback, hawaits.setCallback hhost, List.mem_append_left _ hinbound, hready,
      hreserved⟩
  | dispatch =>
    simp only [callbackStep, hreserved] at hstep
    exact nomatch hstep
  | take other =>
    obtain ⟨hother, rfl⟩ := Option.ite_some_none_eq_some.mp hstep
    exact .setLane hawaits hinbound hready hreserved (by rw [hworker, hother]; simp)
  | readEnd other =>
    -- a worker that reads has the stream
    obtain ⟨hother, rfl⟩ := Option.ite_some_none_eq_some.mp hstep
    obtain ⟨hreads, -⟩ := (hinv.lanes other).reads (by rw [hother]; rfl)
    obtain rfl := ClientFrame.request.inj (Option.some.inj (hreserved.symm.trans hreads))
    exact absurd (hworker.symm.trans hother) (by simp)
  | enqueue other s =>
    simp only [callbackStep] at hstep
    split at hstep
    next =>
      obtain rfl := Option.some.inj hstep
      have hold : callback ≠ st.enqueued := Nat.ne_of_lt (hinv.lt_enqueued hcallback)
      exact ⟨lane, callback, ⟨readEnded, stream, before, host, hworker, hlt,
        (Function.update_of_ne hold _ _).trans hcallback, hstream⟩, hinbound, hready, hreserved⟩
    next => exact nomatch hstep
  | block other s =>
    simp only [callbackStep] at hstep
    split at hstep
    next hother =>
      obtain rfl := Option.some.inj hstep
      exact .setLane hawaits hinbound hready hreserved (by rw [hworker, hother]; simp)
    next => exact nomatch hstep
  | unblock other =>
    simp only [callbackStep] at hstep
    split at hstep
    next s n hother =>
      obtain ⟨hreturned, rfl⟩ := Option.ite_some_none_eq_some.mp hstep
      refine .setLane hawaits hinbound hready hreserved fun heq ↦ ?_
      rw [hworker, hother] at heq
      obtain ⟨-, rfl, rfl⟩ := WorkerState.blocked.inj heq
      exact hreturned callback hlt host hcallback hstream
    next => exact nomatch hstep
  | finish other =>
    obtain ⟨hother, rfl⟩ := Option.ite_some_none_eq_some.mp hstep
    exact .setLane hawaits hinbound hready hreserved (by rw [hworker, hother]; simp)
  | callbackStart id =>
    simp only [callbackStep] at hstep
    split at hstep
    next =>
      obtain ⟨-, hstart⟩ := Option.ite_none_right_eq_some.mp hstep
      obtain ⟨stream, hhost, rfl⟩ := CallbackState.callbackAt_eq_some.mp hstart
      exact ⟨lane, callback, hawaits.setCallback hhost, hinbound, hready, hreserved⟩
    next => exact nomatch hstep
  | responseStart id =>
    obtain ⟨hresponse, -⟩ := Option.ite_none_right_eq_some.mp hstep
    exact absurd (hreserved.symm.trans hresponse) (by simp)
  | responseEnd id =>
    -- a callback that reads its response has the stream
    obtain ⟨next, hnext, -⟩ := Option.map_eq_some_iff.mp hstep
    obtain ⟨stream, hhost, -⟩ := CallbackState.callbackAt_eq_some.mp hnext
    have hreading := hinv.callbacks id
    rw [hhost] at hreading
    exact absurd (hreserved.symm.trans hreading.1) (by simp)
  | callbackReturn id =>
    simp only [callbackStep] at hstep
    split at hstep
    next other hother =>
      obtain ⟨hreturning, rfl⟩ := Option.ite_some_none_eq_some.mp hstep
      have hne : callback ≠ id := by
        rintro rfl
        obtain rfl := Option.some.inj (hcallback.symm.trans hother)
        exact absurd (hresponded.symm.trans hreturning) (by decide)
      exact ⟨lane, callback, ⟨readEnded, stream, before, host, hworker, hlt,
        (Function.update_of_ne hne _ _).trans hcallback, hstream⟩, hinbound, hready, hreserved⟩
    next => exact nomatch hstep

/-- The next request of the lane is sent while the worker waits for the callback. -/
def queuedBehindCallback : List CallbackStep :=
  [.send 7, .dispatch, .take 7, .readEnd 7, .enqueue 7 1, .callbackStart 0, .block 7 1, .send 7,
    .dispatch, .respond 0]

/-- **What a queued request holds up.** The response stays unread, whatever happens then. -/
theorem queued_request_deadlocks :
    ∃ st, callbackMachine.run {} queuedBehindCallback = some st ∧ st.Deadlocked ∧
      ∀ later st', callbackMachine.run st later = some st' → st'.Deadlocked := by
  have hrun : ∃ st, callbackMachine.run {} queuedBehindCallback = some st ∧
      (st.lanes 7) = ⟨true, .blocked true 1 1⟩ ∧ st.callbacks 0 = some ⟨1, .responded⟩ ∧
        st.inbound = [.response 0] ∧ st.reserved = some (.request 7) :=
    ⟨_, rfl, rfl, rfl, rfl, rfl⟩
  obtain ⟨st, hrun, hlane, hcallback, hinbound, hreserved⟩ := hrun
  have hdeadlocked : st.Deadlocked := ⟨7, 0, ⟨true, 1, 1, _, by rw [hlane], by decide, hcallback,
    rfl⟩, by rw [hinbound]; exact List.mem_singleton_self _, by rw [hlane], hreserved⟩
  have hinv : StreamInv st :=
    Machine.run_invariant _ (fun _ _ _ h hstep ↦ h.step hstep) StreamInv.init hrun
  refine ⟨st, hrun, hdeadlocked, fun later st' hlater ↦ ?_⟩
  exact (Machine.run_invariant callbackMachine (I := fun st ↦ StreamInv st ∧ st.Deadlocked)
    (fun _ _ _ h hstep ↦ ⟨h.1.step hstep, h.2.step h.1 hstep⟩) ⟨hinv, hdeadlocked⟩ hlater).2

end Lupine
