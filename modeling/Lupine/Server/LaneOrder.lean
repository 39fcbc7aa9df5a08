import Lupine.Foundation.Machine
import Mathlib.Data.List.Range

/-!
# The order of CUDA calls across lanes

A client thread has a lane of the connection, and the server a worker for each lane. Requests are
written under one lock, whole and in order; those that nobody waits for gather in a batch first. The
dispatcher reads one header at a time, hands the request to the worker of its lane and waits until
the inbound stream is released, which `rpc_read_end` does. Most handlers make their CUDA call after
that, when the dispatcher may have handed the next request to another worker.

## Who is ahead

A program orders two calls by returning from the one before it starts the other, on whatever
threads. Each request keeps the deferred requests whose calls had returned when its own call
started.

## What is ahead

The invariant follows the requests from the threads over the batch, the wire and the lanes to the
workers, in the order they were sent. A worker takes the next request of its lane only when it has
made the calls of all before; so what is ahead of a request in its own lane has made its call by
then. In another lane it has by the condition.
-/

namespace Lupine

open Foundation

/-! ## The state

Requests are numbered by the order they were sent in. The state keeps which of them were sent, and
which CUDA calls were made. -/

/-- A request. Its handler makes one CUDA call, before or after it releases the inbound stream. -/
structure LaneRequest where
  lane : ℕ
  callFirst : Bool
  /-- The deferred requests whose calls had returned when the call that sends this one started. -/
  after : List ℕ
  deriving DecidableEq, Repr

/-- An API call under way on a thread, and the deferred requests it has sent. -/
structure ClientCall where
  after : List ℕ
  deferred : List ℕ := []
  deriving DecidableEq, Repr

structure HandlerRun where
  request : ℕ
  readEnded : Bool := false
  called : Bool := false
  deriving DecidableEq, Repr

/-- `lupine_lane`, with what its worker is at. -/
structure Lane where
  ready : Option ℕ := none
  running : Option HandlerRun := none
  deriving DecidableEq, Repr

/-- The client's threads, the connection and the server's workers. A request goes by its place among
all that were sent; a thread and its lane have one number. Lanes last as long as the connection. -/
structure RpcState where
  requests : List LaneRequest := []
  calls : ℕ → Option ClientCall := fun _ ↦ none
  /-- The deferred requests of the calls that have returned. -/
  returned : List ℕ := []
  /-- `rpc_deferred_write_state`. -/
  batch : List ℕ := []
  wire : List ℕ := []
  dispatched : ℕ := 0
  /-- `read_id`, which is zero when the inbound stream is free. -/
  readId : Option ℕ := none
  lanes : ℕ → Lane := fun _ ↦ {}
  /-- The requests whose CUDA calls were made, in that order. -/
  cudaCalls : List ℕ := []

namespace RpcState

def laneOf (st : RpcState) (r : ℕ) : ℕ := ((st.requests[r]?).map LaneRequest.lane).getD 0

/-- What a request has to follow. -/
def after (st : RpcState) (r : ℕ) : List ℕ :=
  ((st.requests[r]?).map LaneRequest.after).getD []

/-- The handler of a request makes its CUDA call before it releases the inbound stream. -/
def callFirst (st : RpcState) (r : ℕ) : Bool :=
  ((st.requests[r]?).map LaneRequest.callFirst).getD false

def send (st : RpcState) (thread : ℕ) (callFirst : Bool) (call : ClientCall)
    (wire batch : List ℕ) (call' : ClientCall) : RpcState :=
  { st with
    requests := st.requests ++ [⟨thread, callFirst, call.after⟩]
    calls := Function.update st.calls thread (some call')
    wire, batch }

/-- The header of a request was read: its lane is told. -/
def dispatchTo (st : RpcState) (r : ℕ) (wire : List ℕ) : RpcState :=
  { st with
    wire
    dispatched := st.dispatched + 1
    readId := some r
    lanes := Function.update st.lanes (st.laneOf r)
      { st.lanes (st.laneOf r) with ready := some r } }

def setLane (st : RpcState) (lane : ℕ) (next : Lane) : RpcState :=
  { st with lanes := Function.update st.lanes lane next }

end RpcState

/-! ## Steps

The dispatcher reads a header only when the stream is free. -/

/-- A step of a client thread, of the sender of the batch, of the dispatcher or of a worker. -/
inductive RpcStep where
  | callStart (thread : ℕ)
  | writeEnd (thread : ℕ) (callFirst : Bool)
  | writeEndDeferred (thread : ℕ) (callFirst framed : Bool)
  | callReturn (thread : ℕ)
  | flushDeferred
  | dispatch
  /-- The worker of a lane takes the request that is ready. -/
  | take (lane : ℕ)
  | cudaCall (lane : ℕ)
  | readEnd (lane : ℕ)
  | finish (lane : ℕ)
  deriving DecidableEq, Repr

def rpcStep (st : RpcState) : RpcStep → Option RpcState
  | .callStart thread =>
    if (st.calls thread).isSome then none
    else some { st with calls := Function.update st.calls thread (some ⟨st.returned, []⟩) }
  | .writeEnd thread callFirst =>
    -- `rpc_write_end` flushes the batch before it writes.
    (st.calls thread).map fun call ↦
      st.send thread callFirst call (st.wire ++ st.batch ++ [st.requests.length]) [] call
  | .writeEndDeferred thread callFirst framed =>
    -- A framed payload is sent at once, as by `rpc_write_end`.
    (st.calls thread).map fun call ↦
      let call' := { call with deferred := call.deferred ++ [st.requests.length] }
      if framed then
        st.send thread callFirst call (st.wire ++ st.batch ++ [st.requests.length]) [] call'
      else st.send thread callFirst call st.wire (st.batch ++ [st.requests.length]) call'
  | .callReturn thread =>
    (st.calls thread).map fun call ↦
      { st with
        calls := Function.update st.calls thread none
        returned := st.returned ++ call.deferred }
  | .flushDeferred => some { st with wire := st.wire ++ st.batch, batch := [] }
  | .dispatch =>
    match st.readId, st.wire with
    | none, r :: wire =>
      some (st.dispatchTo r wire)
    | _, _ => none
  | .take lane =>
    match (st.lanes lane).ready, (st.lanes lane).running with
    | some r, none => some (st.setLane lane ⟨none, some { request := r }⟩)
    | _, _ => none
  | .cudaCall lane =>
    match (st.lanes lane).running with
    | some run =>
      if run.called = false ∧ run.readEnded = !st.callFirst run.request then
        some { st.setLane lane
            { st.lanes lane with running := some { run with called := true } } with
          cudaCalls := st.cudaCalls ++ [run.request] }
      else none
    | none => none
  | .readEnd lane =>
    match (st.lanes lane).running with
    | some run =>
      if run.readEnded = false ∧ (st.callFirst run.request = true → run.called = true) then
        some { st.setLane lane
            { st.lanes lane with running := some { run with readEnded := true } } with
          readId := none }
      else none
    | none => none
  | .finish lane =>
    match (st.lanes lane).running with
    | some run =>
      if run.readEnded = true ∧ run.called = true then
        some (st.setLane lane { st.lanes lane with running := none })
      else none
    | none => none

def rpcLanes : Machine RpcState RpcStep := ⟨rpcStep⟩

/-! ## What is promised

A request is ahead of another one if its caller had returned before the other's call began. -/

/-- A CUDA call is made after those of the deferred requests whose calls had returned before the
call that sent its request. -/
def RpcState.CallsInOrder (st : RpcState) : Prop :=
  ∀ i r : ℕ, st.cudaCalls[i]? = some r → ∀ r₁ ∈ st.after r, r₁ ∈ st.cudaCalls.take i

/-- The dispatcher reads a header only when none of the requests that are ahead of it waits for its
CUDA call in the worker of another lane, with the inbound stream released. -/
def DispatchesBehindCalls (st : RpcState) : RpcStep → Prop
  | .dispatch => ∀ r ∈ st.wire.head?, ∀ r₁ ∈ st.after r, st.laneOf r₁ ≠ st.laneOf r →
      (st.lanes (st.laneOf r₁)).running ≠ some ⟨r₁, true, false⟩
  | _ => True

instance (st : RpcState) (step : RpcStep) : Decidable (DispatchesBehindCalls st step) := by
  cases step <;> unfold DispatchesBehindCalls <;> infer_instance

/-! ## The invariant -/

structure RpcInv (st : RpcState) : Prop where
  /-- What was sent and not read yet is in order. -/
  queue : st.wire ++ st.batch
    = List.range' st.dispatched (st.requests.length - st.dispatched)
  dispatched_le : st.dispatched ≤ st.requests.length
  after_lt : ∀ r, ∀ r₁ ∈ st.after r, r₁ < r
  returned_lt : ∀ r ∈ st.returned, r < st.requests.length
  calls_lt : ∀ thread call, st.calls thread = some call →
    (∀ r ∈ call.after, r < st.requests.length) ∧ ∀ r ∈ call.deferred, r < st.requests.length
  /-- The inbound stream is reserved for the request a lane is about to read, or is reading. -/
  ready : ∀ l r, (st.lanes l).ready = some r →
    st.laneOf r = l ∧ r < st.dispatched ∧ st.readId = some r
  running : ∀ l run, (st.lanes l).running = some run →
    st.laneOf run.request = l ∧ run.request < st.dispatched ∧
      (run.readEnded = false → st.readId = some run.request ∧ (st.lanes l).ready = none)
  /-- A worker makes its calls one request after the other. -/
  serial : ∀ l run, (st.lanes l).running = some run → ∀ r < run.request, st.laneOf r = l →
    r ∈ st.cudaCalls
  /-- What was read has made its call, or its worker has it. -/
  outstanding : ∀ r < st.dispatched, r ∈ st.cudaCalls ∨
    (st.lanes (st.laneOf r)).ready = some r ∨
      ∃ ended, (st.lanes (st.laneOf r)).running = some ⟨r, ended, false⟩
  ahead : ∀ r < st.dispatched, ∀ r₁ ∈ st.after r, r₁ ∈ st.cudaCalls ∨ st.laneOf r₁ = st.laneOf r
  inOrder : st.CallsInOrder
  calls_dispatched : ∀ r ∈ st.cudaCalls, r < st.dispatched

theorem rpcInv_init : RpcInv {} where
  queue := rfl
  dispatched_le := le_rfl
  after_lt _ _ h := absurd h List.not_mem_nil
  returned_lt _ h := absurd h List.not_mem_nil
  calls_lt _ _ h := nomatch h
  ready _ _ h := nomatch h
  running _ _ h := nomatch h
  serial _ _ h := nomatch h
  outstanding _ h := absurd h (Nat.not_lt_zero _)
  ahead _ h := absurd h (Nat.not_lt_zero _)
  inOrder _ _ h := nomatch h
  calls_dispatched _ h := absurd h List.not_mem_nil

/-! ## Steps keep the invariant

What is known of a request does not change when another one is sent. -/

namespace RpcState

variable {st : RpcState} {r : ℕ}

theorem getElem?_send (hr : r < st.requests.length) (request : LaneRequest) :
    (st.requests ++ [request])[r]? = st.requests[r]? := List.getElem?_append_left hr

theorem lanes_setLane (st : RpcState) (lane : ℕ) (next : Lane) (l : ℕ) :
    l = lane ∧ (st.setLane lane next).lanes l = next ∨
      l ≠ lane ∧ (st.setLane lane next).lanes l = st.lanes l := by
  rcases eq_or_ne l lane with rfl | hne
  · exact Or.inl ⟨rfl, Function.update_self _ _ _⟩
  · exact Or.inr ⟨hne, Function.update_of_ne hne _ _⟩

theorem running_dispatchTo (st : RpcState) (r : ℕ) (wire : List ℕ) (l : ℕ) :
    ((st.dispatchTo r wire).lanes l).running = (st.lanes l).running := by
  show (Function.update st.lanes _ _ l).running = _
  rcases eq_or_ne l (st.laneOf r) with rfl | hne
  · rw [Function.update_self]
  · rw [Function.update_of_ne hne]

theorem ready_dispatchTo (st : RpcState) (r : ℕ) (wire : List ℕ) (l : ℕ) :
    ((st.dispatchTo r wire).lanes l).ready
      = if l = st.laneOf r then some r else (st.lanes l).ready := by
  show (Function.update st.lanes _ _ l).ready = _
  rcases eq_or_ne l (st.laneOf r) with rfl | hne
  · rw [Function.update_self, if_pos rfl]
  · rw [Function.update_of_ne hne, if_neg hne]

end RpcState

namespace RpcInv

variable {st : RpcState} (h : RpcInv st)
include h

theorem send {thread : ℕ} {callFirst : Bool} {call call' : ClientCall} {wire batch : List ℕ}
    (hcall : st.calls thread = some call)
    (hqueue : wire ++ batch = st.wire ++ st.batch ++ [st.requests.length])
    (hafter : call'.after = call.after)
    (hdeferred : ∀ r ∈ call'.deferred, r ∈ call.deferred ∨ r = st.requests.length) :
    RpcInv (st.send thread callFirst call wire batch call') := by
  set st' := st.send thread callFirst call wire batch call' with hst'
  have hlength : st'.requests.length = st.requests.length + 1 := List.length_append
  have hlane : ∀ r < st.dispatched, st'.laneOf r = st.laneOf r := fun r hr ↦ by
    rw [RpcState.laneOf, RpcState.laneOf]
    exact congrArg (fun request ↦ (Option.map LaneRequest.lane request).getD 0)
      (RpcState.getElem?_send (lt_of_lt_of_le hr h.dispatched_le) _)
  have hafters : ∀ r < st.requests.length, st'.after r = st.after r := fun r hr ↦ by
    rw [RpcState.after, RpcState.after]
    exact congrArg (fun request ↦ (Option.map LaneRequest.after request).getD [])
      (RpcState.getElem?_send hr _)
  have hlt : ∀ {r : ℕ}, r < st.dispatched → r < st.requests.length :=
    fun hr ↦ lt_of_lt_of_le hr h.dispatched_le
  refine
    { queue := ?_
      dispatched_le := le_trans h.dispatched_le (hlength ▸ Nat.le_succ _)
      after_lt := ?_
      returned_lt := fun r hr ↦ hlength ▸ Nat.lt_succ_of_lt (h.returned_lt r hr)
      calls_lt := ?_
      ready := ?_
      running := ?_
      serial := ?_
      outstanding := ?_
      ahead := ?_
      inOrder := ?_
      calls_dispatched := h.calls_dispatched }
  · show wire ++ batch = _
    have hcount : st'.requests.length - st.dispatched
        = st.requests.length - st.dispatched + 1 := by
      rw [hlength]
      exact Nat.succ_sub h.dispatched_le
    show _ = List.range' st.dispatched (st'.requests.length - st.dispatched)
    rw [hqueue, h.queue, hcount, List.range'_concat, Nat.one_mul,
      Nat.add_sub_cancel' h.dispatched_le]
  · intro r r₁ hr₁
    -- The new request is behind all others, and nothing is known of those not sent.
    rcases lt_trichotomy r st.requests.length with hr | rfl | hr
    · exact h.after_lt r r₁ (hafters r hr ▸ hr₁)
    · have hnew : st'.after st.requests.length = call.after := by
        rw [RpcState.after, hst']
        show (Option.map LaneRequest.after (st.requests ++ [_])[st.requests.length]?).getD [] = _
        rw [List.getElem?_concat_length]
        rfl
      exact (h.calls_lt thread call hcall).1 r₁ (hnew ▸ hr₁)
    · have hnone : st'.after r = [] := by
        rw [RpcState.after, List.getElem?_eq_none (hlength ▸ hr)]
        rfl
      exact absurd (hnone ▸ hr₁) List.not_mem_nil
  · intro t c hc
    rw [hlength]
    rcases eq_or_of_update hc with ⟨-, heq⟩ | ⟨-, hc⟩
    · obtain rfl := Option.some.inj heq
      obtain ⟨hcafter, hcdeferred⟩ := h.calls_lt thread call hcall
      refine ⟨fun r hr ↦ Nat.lt_succ_of_lt (hcafter r (hafter ▸ hr)), fun r hr ↦ ?_⟩
      rcases hdeferred r hr with hr | rfl
      · exact Nat.lt_succ_of_lt (hcdeferred r hr)
      · exact Nat.lt_succ_self _
    · obtain ⟨hcafter, hcdeferred⟩ := h.calls_lt t c hc
      exact ⟨fun r hr ↦ Nat.lt_succ_of_lt (hcafter r hr),
        fun r hr ↦ Nat.lt_succ_of_lt (hcdeferred r hr)⟩
  · intro l r hr
    obtain ⟨hl, hlt', hread⟩ := h.ready l r hr
    exact ⟨(hlane r hlt').trans hl, hlt', hread⟩
  · intro l run hrun
    obtain ⟨hl, hlt', hread⟩ := h.running l run hrun
    exact ⟨(hlane _ hlt').trans hl, hlt', hread⟩
  · intro l run hrun r hr hl
    have hlt' : r < st.dispatched := hr.trans (h.running l run hrun).2.1
    exact h.serial l run hrun r hr ((hlane r hlt').symm.trans hl)
  · intro r hr
    rw [hlane r hr]
    exact h.outstanding r hr
  · intro r hr r₁ hr₁
    rw [hafters r (hlt hr)] at hr₁
    rw [hlane r hr, hlane r₁ ((h.after_lt r r₁ hr₁).trans hr)]
    exact h.ahead r hr r₁ hr₁
  · intro i r hi r₁ hr₁
    have hr := h.calls_dispatched r (List.mem_of_getElem? hi)
    rw [hafters r (hlt hr)] at hr₁
    exact h.inOrder i r hi r₁ hr₁

theorem dispatch {r : ℕ} {wire : List ℕ} (hfree : st.readId = none) (hwire : st.wire = r :: wire)
    (hok : DispatchesBehindCalls st .dispatch) :
    RpcInv (st.dispatchTo r wire) := by
  have hqueue := h.queue
  rw [hwire] at hqueue
  have hlt : st.dispatched < st.requests.length := by
    by_contra hle
    rw [Nat.sub_eq_zero_of_le (not_lt.mp hle)] at hqueue
    exact nomatch hqueue
  obtain ⟨n, hn⟩ : ∃ n, st.requests.length - st.dispatched = n + 1 :=
    Nat.exists_eq_succ_of_ne_zero (Nat.sub_ne_zero_of_lt hlt)
  rw [hn, List.range'_succ, List.cons_append] at hqueue
  obtain ⟨rfl, hrest⟩ := List.cons.inj hqueue
  -- The inbound stream is free, so no lane is about to read, and none is reading.
  have hready : ∀ l q, (st.lanes l).ready ≠ some q :=
    fun l q hq ↦ nomatch hfree.symm.trans (h.ready l q hq).2.2
  have hended : ∀ l run, (st.lanes l).running = some run → run.readEnded = true := by
    intro l run hrun
    rcases Bool.eq_false_or_eq_true run.readEnded with htrue | hfalse
    · exact htrue
    · exact nomatch hfree.symm.trans ((h.running l run hrun).2.2 hfalse).1
  refine
    { h with
      queue := ?_
      dispatched_le := hlt
      ready := ?_
      running := ?_
      serial := fun l run hrun ↦ h.serial l run (st.running_dispatchTo _ wire l ▸ hrun)
      outstanding := ?_
      ahead := ?_
      calls_dispatched := fun q hq ↦ Nat.lt_succ_of_lt (h.calls_dispatched q hq) }
  · have hlength : st.requests.length - (st.dispatched + 1) = n := by omega
    rw [← hlength] at hrest
    exact hrest
  · intro l q hq
    rw [RpcState.ready_dispatchTo] at hq
    split_ifs at hq with hl
    · obtain rfl := Option.some.inj hq
      exact ⟨hl.symm, Nat.lt_succ_self _, rfl⟩
    · exact absurd hq (hready l q)
  · intro l run hrun
    rw [RpcState.running_dispatchTo] at hrun
    obtain ⟨hl, hlt', -⟩ := h.running l run hrun
    refine ⟨hl, Nat.lt_succ_of_lt hlt', fun hfalse ↦ ?_⟩
    exact nomatch hfalse.symm.trans (hended l run hrun)
  · intro q hq
    show q ∈ st.cudaCalls ∨ ((st.dispatchTo _ wire).lanes (st.laneOf q)).ready = _ ∨
      ∃ ended, ((st.dispatchTo _ wire).lanes (st.laneOf q)).running = _
    rw [RpcState.ready_dispatchTo, RpcState.running_dispatchTo]
    rcases Nat.lt_succ_iff_lt_or_eq.mp hq with hq | rfl
    · rcases h.outstanding q hq with hcalled | hq' | hrun
      · exact Or.inl hcalled
      · exact absurd hq' (hready _ q)
      · exact Or.inr (Or.inr hrun)
    · exact Or.inr (Or.inl (if_pos rfl))
  · intro q hq r₁ hr₁
    rcases Nat.lt_succ_iff_lt_or_eq.mp hq with hq | rfl
    · exact h.ahead q hq r₁ hr₁
    · -- What is ahead was read before, so its worker has it, unless it has made its call.
      rcases h.outstanding r₁ (h.after_lt _ r₁ hr₁) with hcalled | hready' | ⟨ended, hrun⟩
      · exact Or.inl hcalled
      · exact absurd hready' (hready _ r₁)
      · obtain rfl := hended _ _ hrun
        refine Or.inr (not_not.mp fun hne ↦ ?_)
        exact hok _ (hwire ▸ rfl) r₁ hr₁ hne hrun

/-- A worker takes the request that is ready: it has made the calls of all that its lane had
before. -/
theorem take {l r : ℕ} (hready : (st.lanes l).ready = some r)
    (hidle : (st.lanes l).running = none) :
    RpcInv (st.setLane l ⟨none, some { request := r }⟩) := by
  obtain ⟨hl, hlt, hread⟩ := h.ready l r hready
  refine { h with ready := ?_, running := ?_, serial := ?_, outstanding := ?_ }
  · intro l' q hq
    rcases st.lanes_setLane l ⟨none, some { request := r }⟩ l' with ⟨rfl, heq⟩ | ⟨-, heq⟩
    · rw [heq] at hq
      exact nomatch hq
    · exact h.ready l' q (heq ▸ hq)
  · intro l' run hrun
    rcases st.lanes_setLane l ⟨none, some { request := r }⟩ l' with ⟨rfl, heq⟩ | ⟨-, heq⟩
    · rw [heq] at hrun ⊢
      obtain rfl := Option.some.inj hrun
      exact ⟨hl, hlt, fun _ ↦ ⟨hread, rfl⟩⟩
    · rw [heq] at hrun ⊢
      exact h.running l' run hrun
  · intro l' run hrun q hq hq'
    rcases st.lanes_setLane l ⟨none, some { request := r }⟩ l' with ⟨rfl, heq⟩ | ⟨-, heq⟩
    · rw [heq] at hrun
      obtain rfl := Option.some.inj hrun
      have hq' : st.laneOf q = l' := hq'
      -- The lane has only this request ready and nothing running, so earlier ones are done.
      rcases h.outstanding q (hq.trans hlt) with hcalled | hother | ⟨ended, hbusy⟩
      · exact hcalled
      · rw [hq', hready] at hother
        exact absurd (Option.some.inj hother) hq.ne'
      · rw [hq', hidle] at hbusy
        exact nomatch hbusy
    · exact h.serial l' run (heq ▸ hrun) q hq hq'
  · intro q hq
    show q ∈ st.cudaCalls ∨ ((st.setLane l _).lanes (st.laneOf q)).ready = some q ∨
      ∃ ended, ((st.setLane l _).lanes (st.laneOf q)).running = some ⟨q, ended, false⟩
    rcases st.lanes_setLane l ⟨none, some { request := r }⟩ (st.laneOf q) with ⟨hq', heq⟩ | ⟨-, heq⟩
    · rcases h.outstanding q hq with hcalled | hother | ⟨ended, hbusy⟩
      · exact Or.inl hcalled
      · rw [hq', hready] at hother
        obtain rfl := Option.some.inj hother
        exact Or.inr (Or.inr ⟨false, by rw [heq]⟩)
      · rw [hq', hidle] at hbusy
        exact nomatch hbusy
    · rw [heq]
      exact h.outstanding q hq

/-- A CUDA call is made. What is ahead of it has made its call, in another lane before the request
was read, in its own before its worker took it. -/
theorem cudaCall {l : ℕ} {run : HandlerRun} (hrun : (st.lanes l).running = some run) :
    RpcInv { st.setLane l { st.lanes l with running := some { run with called := true } } with
      cudaCalls := st.cudaCalls ++ [run.request] } := by
  obtain ⟨hl, hlt, hread⟩ := h.running l run hrun
  set next : Lane := { st.lanes l with running := some { run with called := true } } with hnext
  refine
    { h with
      ready := ?_
      running := ?_
      serial := ?_
      outstanding := ?_
      ahead := fun r hr r₁ hr₁ ↦ (h.ahead r hr r₁ hr₁).imp_left (List.mem_append_left _)
      inOrder := ?_
      calls_dispatched := ?_ }
  · intro l' q hq
    rcases st.lanes_setLane l next l' with ⟨rfl, heq⟩ | ⟨-, heq⟩
    · exact h.ready l' q ((congrArg Lane.ready heq).symm.trans hq)
    · exact h.ready l' q ((congrArg Lane.ready heq).symm.trans hq)
  · intro l' run' hrun'
    show _ ∧ _ ∧ (_ → _ ∧ ((st.setLane l next).lanes l').ready = none)
    rcases st.lanes_setLane l next l' with ⟨rfl, heq⟩ | ⟨-, heq⟩
    · obtain rfl := Option.some.inj ((congrArg Lane.running heq).symm.trans hrun')
      rw [heq]
      exact ⟨hl, hlt, hread⟩
    · rw [heq]
      exact h.running l' run' ((congrArg Lane.running heq).symm.trans hrun')
  · intro l' run' hrun' q hq hq'
    refine List.mem_append_left _ ?_
    rcases st.lanes_setLane l next l' with ⟨rfl, heq⟩ | ⟨-, heq⟩
    · obtain rfl := Option.some.inj ((congrArg Lane.running heq).symm.trans hrun')
      exact h.serial l' run hrun q hq hq'
    · exact h.serial l' run' ((congrArg Lane.running heq).symm.trans hrun') q hq hq'
  · intro q hq
    show q ∈ st.cudaCalls ++ [run.request] ∨
      ((st.setLane l next).lanes (st.laneOf q)).ready = some q ∨
        ∃ ended, ((st.setLane l next).lanes (st.laneOf q)).running = some ⟨q, ended, false⟩
    rcases h.outstanding q hq with hcalled | hready | ⟨ended, hbusy⟩
    · exact Or.inl (List.mem_append_left _ hcalled)
    · refine Or.inr (Or.inl ?_)
      rcases st.lanes_setLane l next (st.laneOf q) with ⟨hq', heq⟩ | ⟨-, heq⟩
      · rw [heq, ← hready, hq']
      · rw [heq, hready]
    · rcases st.lanes_setLane l next (st.laneOf q) with ⟨hq', -⟩ | ⟨-, heq⟩
      · rw [hq', hrun] at hbusy
        obtain rfl := Option.some.inj hbusy
        exact Or.inl (List.mem_append_right _ (List.mem_singleton_self _))
      · exact Or.inr (Or.inr ⟨ended, by rw [heq, hbusy]⟩)
  · intro i q hi r₁ hr₁
    show r₁ ∈ (st.cudaCalls ++ [run.request]).take i
    rcases lt_or_ge i st.cudaCalls.length with hlt' | hge
    · rw [List.take_append_of_le_length hlt'.le]
      exact h.inOrder i q ((List.getElem?_append_left hlt').symm.trans hi) r₁ hr₁
    · have hq := (List.getElem?_append_right hge).symm.trans hi
      rw [List.getElem?_singleton] at hq
      obtain ⟨hi', rfl⟩ := Option.ite_some_none_eq_some.mp hq
      rw [show i = st.cudaCalls.length by omega, List.take_left]
      -- What is ahead is done already, or it is an earlier request of the same worker.
      rcases h.ahead run.request hlt r₁ hr₁ with hcalled | hsame
      · exact hcalled
      · exact h.serial l run hrun r₁ (h.after_lt run.request r₁ hr₁) (hsame.trans hl)
  · intro q hq
    rcases List.mem_append.mp hq with hq | hq
    · exact h.calls_dispatched q hq
    · exact List.mem_singleton.mp hq ▸ hlt

theorem readEnd {l : ℕ} {run : HandlerRun} (hrun : (st.lanes l).running = some run)
    (hreading : run.readEnded = false) :
    RpcInv { st.setLane l { st.lanes l with running := some { run with readEnded := true } } with
      readId := none } := by
  obtain ⟨hl, hlt, hread⟩ := h.running l run hrun
  obtain ⟨hread, hidle⟩ := hread hreading
  set next : Lane := { st.lanes l with running := some { run with readEnded := true } } with hnext
  -- The stream is reserved for this request, which is in no other lane.
  have hothers : ∀ l' ≠ l, ∀ q, st.laneOf q = l' → st.readId ≠ some q := by
    intro l' hne q hq hread'
    obtain rfl := Option.some.inj (hread.symm.trans hread')
    exact hne (hq.symm.trans hl)
  refine { h with ready := ?_, running := ?_, serial := ?_, outstanding := ?_ }
  · intro l' q hq
    rcases st.lanes_setLane l next l' with ⟨rfl, heq⟩ | ⟨hne, heq⟩
    · exact nomatch hidle.symm.trans ((congrArg Lane.ready heq).symm.trans hq)
    · obtain ⟨hq', -, hread'⟩ := h.ready l' q ((congrArg Lane.ready heq).symm.trans hq)
      exact absurd hread' (hothers l' hne q hq')
  · intro l' run' hrun'
    rcases st.lanes_setLane l next l' with ⟨rfl, heq⟩ | ⟨hne, heq⟩
    · obtain rfl := Option.some.inj ((congrArg Lane.running heq).symm.trans hrun')
      exact ⟨hl, hlt, fun hfalse ↦ nomatch hfalse⟩
    · obtain ⟨hl', hlt', hread'⟩ := h.running l' run' ((congrArg Lane.running heq).symm.trans hrun')
      exact ⟨hl', hlt', fun hfalse ↦ absurd (hread' hfalse).1 (hothers l' hne _ hl')⟩
  · intro l' run' hrun' q hq hq'
    rcases st.lanes_setLane l next l' with ⟨rfl, heq⟩ | ⟨-, heq⟩
    · obtain rfl := Option.some.inj ((congrArg Lane.running heq).symm.trans hrun')
      exact h.serial l' run hrun q hq hq'
    · exact h.serial l' run' ((congrArg Lane.running heq).symm.trans hrun') q hq hq'
  · intro q hq
    show q ∈ st.cudaCalls ∨ ((st.setLane l next).lanes (st.laneOf q)).ready = some q ∨
      ∃ ended, ((st.setLane l next).lanes (st.laneOf q)).running = some ⟨q, ended, false⟩
    rcases st.lanes_setLane l next (st.laneOf q) with ⟨hq', heq⟩ | ⟨-, heq⟩
    · rcases h.outstanding q hq with hcalled | hready | ⟨ended, hbusy⟩
      · exact Or.inl hcalled
      · rw [hq'] at hready
        exact nomatch hidle.symm.trans hready
      · rw [hq', hrun] at hbusy
        obtain rfl := Option.some.inj hbusy
        exact Or.inr (Or.inr ⟨true, by rw [heq]⟩)
    · rw [heq]
      exact h.outstanding q hq

theorem finish {l : ℕ} {run : HandlerRun} (hrun : (st.lanes l).running = some run)
    (hcalled : run.called = true) :
    RpcInv (st.setLane l { st.lanes l with running := none }) := by
  set next : Lane := { st.lanes l with running := none } with hnext
  refine { h with ready := ?_, running := ?_, serial := ?_, outstanding := ?_ }
  · intro l' q hq
    rcases st.lanes_setLane l next l' with ⟨rfl, heq⟩ | ⟨-, heq⟩
    · exact h.ready l' q ((congrArg Lane.ready heq).symm.trans hq)
    · exact h.ready l' q ((congrArg Lane.ready heq).symm.trans hq)
  · intro l' run' hrun'
    rcases st.lanes_setLane l next l' with ⟨rfl, heq⟩ | ⟨-, heq⟩
    · exact nomatch (congrArg Lane.running heq).symm.trans hrun'
    · rw [heq] at hrun' ⊢
      exact h.running l' run' hrun'
  · intro l' run' hrun' q hq hq'
    rcases st.lanes_setLane l next l' with ⟨rfl, heq⟩ | ⟨-, heq⟩
    · exact nomatch (congrArg Lane.running heq).symm.trans hrun'
    · exact h.serial l' run' ((congrArg Lane.running heq).symm.trans hrun') q hq hq'
  · intro q hq
    show q ∈ st.cudaCalls ∨ ((st.setLane l next).lanes (st.laneOf q)).ready = some q ∨
      ∃ ended, ((st.setLane l next).lanes (st.laneOf q)).running = some ⟨q, ended, false⟩
    rcases st.lanes_setLane l next (st.laneOf q) with ⟨hq', heq⟩ | ⟨-, heq⟩
    · rcases h.outstanding q hq with hmade | hready | ⟨ended, hbusy⟩
      · exact Or.inl hmade
      · rw [hq'] at hready
        exact Or.inr (Or.inl ((congrArg Lane.ready heq).trans hready))
      · rw [hq', hrun] at hbusy
        obtain rfl := Option.some.inj hbusy
        exact nomatch hcalled
    · rw [heq]
      exact h.outstanding q hq

/-- **Steps keep the invariant.** -/
theorem step {step : RpcStep} {st' : RpcState} (hok : DispatchesBehindCalls st step)
    (hstep : rpcStep st step = some st') : RpcInv st' := by
  cases step with
  | callStart thread =>
    obtain ⟨-, hstep⟩ := Option.ite_none_left_eq_some.mp hstep
    obtain rfl := Option.some.inj hstep
    refine { h with calls_lt := fun t call hcall ↦ ?_ }
    rcases eq_or_of_update hcall with ⟨-, heq⟩ | ⟨-, hcall⟩
    · obtain rfl := Option.some.inj heq
      exact ⟨h.returned_lt, fun r hr ↦ absurd hr List.not_mem_nil⟩
    · exact h.calls_lt t call hcall
  | writeEnd thread callFirst =>
    obtain ⟨call, hcall, rfl⟩ := Option.map_eq_some_iff.mp hstep
    exact h.send hcall (List.append_nil _) rfl fun r hr ↦ Or.inl hr
  | writeEndDeferred thread callFirst framed =>
    obtain ⟨call, hcall, rfl⟩ := Option.map_eq_some_iff.mp hstep
    -- besides what it has deferred before, the call now owes this request
    have hdeferred : ∀ r ∈ call.deferred ++ [st.requests.length],
        r ∈ call.deferred ∨ r = st.requests.length :=
      fun r hr ↦ (List.mem_append.mp hr).imp_right List.mem_singleton.mp
    cases framed with
    | true => exact h.send hcall (List.append_nil _) rfl hdeferred
    | false => exact h.send hcall (List.append_assoc _ _ _).symm rfl hdeferred
  | callReturn thread =>
    obtain ⟨call, hcall, rfl⟩ := Option.map_eq_some_iff.mp hstep
    refine { h with returned_lt := fun r hr ↦ ?_, calls_lt := fun t c hc ↦ ?_ }
    -- what a call has deferred counts as returned once the call has returned
    · rcases List.mem_append.mp hr with hr | hr
      · exact h.returned_lt r hr
      · exact (h.calls_lt thread call hcall).2 r hr
    · rcases eq_or_of_update hc with ⟨-, heq⟩ | ⟨-, hc⟩
      · exact nomatch heq
      · exact h.calls_lt t c hc
  | flushDeferred =>
    obtain rfl := Option.some.inj hstep
    exact { h with queue := (List.append_nil _).trans h.queue }
  | dispatch =>
    change (match st.readId, st.wire with | none, r :: wire => _ | _, _ => none) = _ at hstep
    -- the dispatcher reads a frame only when nobody has the stream
    cases hread : st.readId with
    | some r => rw [hread] at hstep; exact nomatch hstep
    | none =>
      cases hwire : st.wire with
      | nil => rw [hread, hwire] at hstep; exact nomatch hstep
      | cons r wire =>
        rw [hread, hwire] at hstep
        exact Option.some.inj hstep ▸ h.dispatch hread hwire hok
  | take l =>
    change (match (st.lanes l).ready, (st.lanes l).running with
      | some r, none => _ | _, _ => none) = _ at hstep
    cases hready : (st.lanes l).ready with
    | none => rw [hready] at hstep; exact nomatch hstep
    | some r =>
      cases hrunning : (st.lanes l).running with
      | some run => rw [hready, hrunning] at hstep; exact nomatch hstep
      | none =>
        rw [hready, hrunning] at hstep
        exact Option.some.inj hstep ▸ h.take hready hrunning
  | cudaCall l =>
    change (match (st.lanes l).running with | some run => _ | none => none) = _ at hstep
    cases hrun : (st.lanes l).running with
    | none => rw [hrun] at hstep; exact nomatch hstep
    | some run =>
      rw [hrun] at hstep
      obtain ⟨-, hstep⟩ := Option.ite_none_right_eq_some.mp hstep
      exact Option.some.inj hstep ▸ h.cudaCall hrun
  | readEnd l =>
    change (match (st.lanes l).running with | some run => _ | none => none) = _ at hstep
    cases hrun : (st.lanes l).running with
    | none => rw [hrun] at hstep; exact nomatch hstep
    | some run =>
      rw [hrun] at hstep
      obtain ⟨⟨hreading, -⟩, hstep⟩ := Option.ite_none_right_eq_some.mp hstep
      exact Option.some.inj hstep ▸ h.readEnd hrun hreading
  | finish l =>
    change (match (st.lanes l).running with | some run => _ | none => none) = _ at hstep
    cases hrun : (st.lanes l).running with
    | none => rw [hrun] at hstep; exact nomatch hstep
    | some run =>
      rw [hrun] at hstep
      obtain ⟨⟨-, hcalled⟩, hstep⟩ := Option.ite_none_right_eq_some.mp hstep
      exact Option.some.inj hstep ▸ h.finish hrun hcalled

end RpcInv

/-- **Calls are made in order.** In a run whose dispatcher never reads a header while a request that
is ahead of it waits for its CUDA call in another lane, every CUDA call follows those that are ahead
of it. -/
theorem cudaCalls_inOrder {steps : List RpcStep} {st : RpcState}
    (hrun : (rpcLanes.restrict DispatchesBehindCalls).run {} steps = some st) :
    st.CallsInOrder := by
  have hinv : RpcInv st := by
    refine Machine.run_invariant _ ?_ rpcInv_init hrun
    intro s step s' h hstep
    obtain ⟨hok, hstep⟩ := Machine.step_restrict.mp hstep
    exact h.step hok hstep
  exact hinv.inOrder

/-- Thread 1 records an event and returns, then thread 2 waits for it; the worker of thread 1 makes
its CUDA call before the dispatcher reads on. -/
def recordThenWait : List RpcStep :=
  [.callStart 1, .writeEndDeferred 1 false false, .callReturn 1, .callStart 2,
    .writeEndDeferred 2 false false, .callReturn 2, .flushDeferred, .dispatch, .take 1, .readEnd 1,
    .cudaCall 1, .dispatch, .take 2, .readEnd 2, .cudaCall 2, .finish 1, .finish 2]

theorem cudaCalls_inOrder_recordThenWait :
    ∃ st, (rpcLanes.restrict DispatchesBehindCalls).run {} recordThenWait = some st ∧
      st.CallsInOrder := by
  have hpossible : ((rpcLanes.restrict DispatchesBehindCalls).run {}
      recordThenWait).isSome = true := by decide +kernel
  obtain ⟨st, hrun⟩ := Option.isSome_iff_exists.mp hpossible
  exact ⟨st, hrun, cudaCalls_inOrder hrun⟩

/-- The dispatcher reads on when the worker of thread 1 has released the inbound stream, and the
worker of thread 2 overtakes it. -/
theorem wait_overtakes_record :
    ∃ st, rpcLanes.run {}
        [.callStart 1, .writeEndDeferred 1 false false, .callReturn 1, .callStart 2,
          .writeEndDeferred 2 false false, .callReturn 2, .flushDeferred, .dispatch, .take 1,
          .readEnd 1, .dispatch, .take 2, .readEnd 2, .cudaCall 2] = some st ∧
      ¬st.CallsInOrder := by
  have hfacts : (rpcLanes.run {}
        [.callStart 1, .writeEndDeferred 1 false false, .callReturn 1, .callStart 2,
          .writeEndDeferred 2 false false, .callReturn 2, .flushDeferred, .dispatch, .take 1,
          .readEnd 1, .dispatch, .take 2, .readEnd 2, .cudaCall 2]).map
        (fun st ↦ (st.cudaCalls, st.after 1)) = some ([1], [0]) := by decide +kernel
  obtain ⟨st, hrun, heq⟩ := Option.map_eq_some_iff.mp hfacts
  obtain ⟨hcalls, hafter⟩ := Prod.mk.inj heq
  refine ⟨st, hrun, fun hinOrder ↦ ?_⟩
  have hsecond : st.cudaCalls[0]? = some 1 := by
    rw [hcalls]
    rfl
  have hahead : 0 ∈ st.after 1 := by
    rw [hafter]
    exact List.mem_singleton_self 0
  exact absurd (hinOrder 0 1 hsecond 0 hahead) List.not_mem_nil

end Lupine
