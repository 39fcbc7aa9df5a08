import Lupine.Checkpoint.Gates
import Lupine.Foundation.History

/-!
# The end of a connection

Every connection is served by a process of its own, which must leave a checkpoint behind when it is
told to stop. It is told by SIGTERM. The signal handler may not do much: it sets a flag and writes
`T` into a pipe, from which a thread of its own reads, asks for a checkpoint and shuts the
connection down, so that the loop of `client_handler` ends. The loop also ends when the client goes
away, and then `Q` is written into the pipe to let that thread go. Only when the lanes and the
thread are joined and the handler is taken back does the process look whether it was told to stop.

Signals come at any time, and the handler may run on any thread, in between the steps of the others.

## The parts of the invariant

Three things are shown, each with as little of the state as it needs. SIGTERM gets to the signal
thread: the flag, the pipe and whoever sleeps on it. The gate of calls: when the lanes are joined
nobody is inside, and the drain is alone. The log of what the provider and CUDA see: a restore, if
any, then calls, then the checkpoint, if any. The way out is shown to be short and never blocked by
counting what the main thread and the signal thread have left to do.
-/

open Foundation

namespace Lupine

/-- The bytes in the signal pipe, `T` and `Q`. -/
inductive SignalEvent where
  | term
  | quit
  deriving DecidableEq, Repr

inductive ChildPhase where
  /-- Forked, with SIGTERM blocked. -/
  | starting
  /-- In the loop of `client_handler`. -/
  | serving
  /-- Behind the loop, where the lanes are joined. -/
  | leaving
  /-- In `lupine_server_checkpoint_child_finish`, where the signal thread is joined. -/
  | quitting
  /-- `signal_write_fd` is -1. -/
  | detached
  /-- The handler of the parent is back. -/
  | restored
  /-- In `drain` of the gate of calls, up to the first wait. -/
  | draining
  /-- In `drain`, between the two waits. -/
  | owning
  | drained
  /-- The provider is stopped. -/
  | finished (success : Bool)
  | exited (success : Bool)
  /-- Ended by a signal. -/
  | killed
  deriving DecidableEq, Repr

namespace ChildPhase

/-- `checkpoint_sigterm_handler` is installed and SIGTERM is not blocked. -/
def HandlesSigterm : ChildPhase → Prop
  | serving | leaving | quitting | detached => True
  | _ => False

/-- `signal_write_fd` is that of the pipe, for whoever looks. -/
def WriteFdSet : ChildPhase → Prop
  | serving | leaving | quitting => True
  | _ => False

/-- The lanes handle requests. -/
def Serves : ChildPhase → Prop
  | serving | leaving => True
  | _ => False

/-- The process is there. -/
def Alive : ChildPhase → Prop
  | exited _ | killed => False
  | _ => True

instance : DecidablePred HandlesSigterm := fun p ↦ by
  cases p <;> unfold HandlesSigterm <;> infer_instance

instance : DecidablePred WriteFdSet := fun p ↦ by
  cases p <;> unfold WriteFdSet <;> infer_instance

instance : DecidablePred Serves := fun p ↦ by
  cases p <;> unfold Serves <;> infer_instance

instance : DecidablePred Alive := fun p ↦ by
  cases p <;> unfold Alive <;> infer_instance

theorem Serves.handlesSigterm {p : ChildPhase} (h : p.Serves) : p.HandlesSigterm := by
  cases p <;> trivial

theorem Serves.writeFdSet {p : ChildPhase} (h : p.Serves) : p.WriteFdSet := by cases p <;> trivial

theorem Serves.alive {p : ChildPhase} (h : p.Serves) : p.Alive := by cases p <;> trivial

end ChildPhase

/-- What the provider and CUDA see of a connection. The provider's start, which comes before all of
it, and its stop, which comes behind, are left out. -/
inductive ChildEffect where
  | restore (connectionId : String) (ok : Bool)
  | callBegin
  | callEnd
  | checkpoint (connectionId : Option String) (ok : Bool)
  deriving DecidableEq, Repr

/-- The main thread of a connection child, and SIGTERM on its way through the process. -/
structure ChildSignals where
  phase : ChildPhase := .starting
  /-- SIGTERM is pending. -/
  pending : Bool := false
  /-- The handlers that have set the flag and look at `signal_write_fd` next. -/
  looking : ℕ := 0
  /-- The handlers that write next. -/
  writing : ℕ := 0
  /-- `signal_pipe`. -/
  pipe : List SignalEvent := []
  /-- `signal_thread` is in `wait_for_shutdown`. -/
  watching : Bool := false
  sigtermReceived : Bool := false
  checkpointRequested : Bool := false
  /-- The connection is not shut down. -/
  connectionOpen : Bool := true
  deriving DecidableEq, Repr

structure ConnectionChild extends ChildSignals where
  /-- `provider.api` is not null. -/
  provider : Bool := false
  /-- `lupine_server_checkpoint_child_start` has returned true. -/
  started : Bool := false
  /-- `rpc_http2_session_id`; `none` if it is null or empty. -/
  session : Option String := none
  /-- `connection_ready` of `client_handler`. -/
  connectionReady : Bool := false
  connectionId : Option String := none
  /-- Requests that lanes have not begun to handle. -/
  queued : ℕ := 0
  calls : CudaCallGate := {}
  /-- What has happened so far. -/
  effects : List ChildEffect := []
  deriving DecidableEq, Repr

inductive ChildAction where
  /-- `lupine_server_checkpoint_child_start`, and SIGTERM is unblocked. -/
  | start (provider ok : Bool)
  /-- A request is read and given to its lane. Before the first, `restored` is what the provider
  answers. -/
  | request (restored : Bool)
  | beginCall
  | endCall
  /-- A lane takes a request and makes no call: it is `LUPINE_RPC_TERMINATE_LANE`, or the connection
  has ended. -/
  | terminateLane
  /-- The loop ends. -/
  | leave
  /-- The lanes are joined, and `Q` is written. -/
  | quit
  /-- The signal thread is joined, and `signal_write_fd` is reset. -/
  | join
  | restoreHandler
  | decide
  | drainAlone
  | drained
  | checkpoint (ok : Bool)
  | exit
  /-- Somebody sends SIGTERM. -/
  | kill
  /-- SIGTERM is delivered: the flag is set. -/
  | deliver
  /-- A handler looks at `signal_write_fd`. -/
  | look
  /-- A handler writes. -/
  | write
  /-- The signal thread reads. -/
  | watch
  | crash
  deriving DecidableEq, Repr

namespace ConnectionChild

variable (capacity : ℕ) (c : ConnectionChild)

def send (event : SignalEvent) : List SignalEvent :=
  if c.pipe.length < capacity then c.pipe ++ [event] else c.pipe

/-- `lupine_server_checkpoint_connection_ready`. -/
def checkpointConnectionReady (restored : Bool) : ConnectionChild × Bool :=
  match c.session with
  | none => (c, true)
  | some id =>
    match c.connectionId with
    | some id' => (c, id' = id)
    | none =>
      if c.provider then
        ({ c with
          connectionId := some id
          effects := c.effects ++ [.restore id restored] }, restored)
      else ({ c with connectionId := some id }, true)

/-- `client_handler`, from the header of a request to its lane. -/
def dispatch (restored : Bool) : ConnectionChild :=
  if c.connectionReady then { c with queued := c.queued + 1 }
  else
    match c.checkpointConnectionReady restored with
    | (c, true) => { c with connectionReady := true, queued := c.queued + 1 }
    | (c, false) => { c with phase := .leaving }

/-- `checkpoint_sigterm_handler` of the child, or `lupine_parent_sigterm_handler`, of which only the
parent takes notice. -/
def deliver : ConnectionChild :=
  if c.phase.HandlesSigterm then
    { c with pending := false, sigtermReceived := true, looking := c.looking + 1 }
  else { c with pending := false }

/-- `wait_for_shutdown`, once there is something to read. -/
def waitForShutdown : Option ConnectionChild :=
  match c.pipe with
  | [] => none
  | .term :: rest =>
    some { c with
      pipe := rest
      watching := false
      checkpointRequested := true
      connectionOpen := false }
  | .quit :: rest => some { c with pipe := rest, watching := false }

/-- `lupine_server_checkpoint_child_finish`, from where the pipe is closed up to the drain. -/
def decide_ : ConnectionChild :=
  if c.sigtermReceived || c.checkpointRequested then
    { c with pipe := [], phase := .draining, calls := c.calls.drain }
  else { c with pipe := [], phase := .finished true }

def checkpoint (ok : Bool) : ConnectionChild :=
  if c.provider then
    { c with
      phase := .finished ok
      effects := c.effects ++ [.checkpoint c.connectionId ok] }
  else { c with phase := .finished true }

def exit : Option ConnectionChild :=
  match c.phase with
  | .finished success => some { c with phase := .exited success }
  | _ => none

def step : ChildAction → Option ConnectionChild
  | .start provider ok =>
    if c.phase = .starting then
      some (if ok then { c with phase := .serving, provider, watching := true, started := true }
        else { c with phase := .exited false })
    else none
  | .request restored => if c.phase = .serving then some (c.dispatch restored) else none
  | .beginCall =>
    if c.phase.Serves ∧ 0 < c.queued then
      c.calls.begin.map fun gate ↦ { c with
        queued := c.queued - 1
        calls := gate
        effects := c.effects ++ [.callBegin] }
    else none
  | .endCall =>
    if c.phase.Serves ∧ 0 < c.calls.inside then
      some { c with calls := c.calls.end_, effects := c.effects ++ [.callEnd] }
    else none
  | .terminateLane =>
    if c.phase.Serves ∧ 0 < c.queued then some { c with queued := c.queued - 1 } else none
  | .leave => if c.phase = .serving then some { c with phase := .leaving } else none
  | .quit =>
    if c.phase = .leaving ∧ c.queued = 0 ∧ c.calls.inside = 0 then
      some { c with phase := .quitting, pipe := c.send capacity .quit }
    else none
  | .join =>
    if c.phase = .quitting ∧ c.watching = false then some { c with phase := .detached } else none
  | .restoreHandler =>
    if c.phase = .detached then some { c with phase := .restored } else none
  | .decide => if c.phase = .restored then some c.decide_ else none
  | .drainAlone =>
    if c.phase = .draining then
      c.calls.drainAlone.map fun gate ↦ { c with phase := .owning, calls := gate }
    else none
  | .drained =>
    if c.phase = .owning then
      c.calls.drained.map fun gate ↦ { c with phase := .drained, calls := gate }
    else none
  | .checkpoint ok => if c.phase = .drained then some (c.checkpoint ok) else none
  | .exit => c.exit
  | .kill => if c.phase.Alive then some { c with pending := true } else none
  | .deliver =>
    if c.pending = true ∧ c.phase.Alive ∧ c.phase ≠ .starting then some c.deliver else none
  | .look =>
    if 0 < c.looking ∧ c.phase.Alive then
      some { c with
        looking := c.looking - 1
        writing := if c.phase.WriteFdSet then c.writing + 1 else c.writing }
    else none
  | .write =>
    if 0 < c.writing ∧ c.phase.Alive then
      some { c with
        writing := c.writing - 1
        pipe := if c.phase.HandlesSigterm then c.send capacity .term else c.pipe }
    else none
  | .watch => if c.watching = true ∧ c.phase.Alive then c.waitForShutdown else none
  | .crash => if c.phase.Alive then some { c with phase := .killed } else none

end ConnectionChild

def connectionChild (capacity : ℕ) : Machine ConnectionChild ChildAction where
  step := ConnectionChild.step capacity

/-! ## SIGTERM on its way to the thread

A byte is written where it is needed or the pipe is full, which wakes the thread as well. Most steps
of the main thread leave this part of the state alone. -/

attribute [local grind =] ChildPhase.Serves ChildPhase.HandlesSigterm ChildPhase.WriteFdSet
  ChildPhase.Alive

/-- What holds of SIGTERM and of the pipe: nobody sleeps on it with a reason to wake up. -/
structure ChildSignals.Sound (c : ChildSignals) : Prop where
  silent : c.phase = .starting → c.sigtermReceived = false
  heard : 0 < c.looking ∨ 0 < c.writing ∨ .term ∈ c.pipe ∨ c.checkpointRequested = true →
    c.sigtermReceived = true
  quits : .quit ∈ c.pipe → ¬c.phase.Serves ∧ c.phase ≠ .starting
  shut : c.phase.Serves → c.watching = false → c.connectionOpen = false
  told : c.phase.Serves → c.sigtermReceived = true → c.looking = 0 → c.writing = 0 →
    c.pipe = [] → c.connectionOpen = false
  wakes : c.phase = .quitting → c.watching = true → c.pipe ≠ []
  watched : c.watching = true → c.phase.Alive → c.phase.WriteFdSet

namespace ConnectionChild

variable {capacity : ℕ} {c c' : ConnectionChild} {a : ChildAction} {as : List ChildAction}

theorem send_ne_nil (hcap : 0 < capacity) (event : SignalEvent) : c.send capacity event ≠ [] := by
  rw [send]
  split_ifs with hroom
  · exact List.append_ne_nil_of_right_ne_nil _ (List.cons_ne_nil _ _)
  · intro hnil
    exact hroom (hnil ▸ hcap)

theorem mem_send {event e : SignalEvent} (h : e ∈ c.send capacity event) :
    e ∈ c.pipe ∨ e = event := by
  rw [send] at h
  split_ifs at h
  · rwa [List.mem_append, List.mem_singleton] at h
  · exact Or.inl h

theorem dispatch_signals (restored : Bool) :
    (c.dispatch restored).toChildSignals = c.toChildSignals ∨
      (c.dispatch restored).toChildSignals = { c.toChildSignals with phase := .leaving } := by
  have hsame : (c.checkpointConnectionReady restored).1.toChildSignals = c.toChildSignals := by
    unfold checkpointConnectionReady
    grind
  unfold dispatch
  grind

theorem sound_step (hcap : 0 < capacity) (h : c.Sound) (hs : c.step capacity a = some c') :
    c'.Sound := by
  cases a with
  | start provider ok =>
    obtain ⟨hphase, hs⟩ := Option.ite_none_right_eq_some.mp hs
    grind [ChildSignals.Sound]
  | request restored =>
    obtain ⟨hphase, ⟨⟩⟩ := Option.ite_none_right_eq_some.mp hs
    rcases c.dispatch_signals restored with hsame | hleaving
    · exact hsame ▸ h
    · rw [hleaving]
      grind [ChildSignals.Sound]
  | beginCall =>
    obtain ⟨-, hs⟩ := Option.ite_none_right_eq_some.mp hs
    obtain ⟨gate, -, rfl⟩ := Option.map_eq_some_iff.mp hs
    exact h
  | endCall | terminateLane =>
    obtain ⟨-, ⟨⟩⟩ := Option.ite_none_right_eq_some.mp hs
    exact h
  | quit =>
    obtain ⟨⟨hphase, -⟩, ⟨⟩⟩ := Option.ite_none_right_eq_some.mp hs
    -- a pipe that is full wakes the thread as well
    have hsend : c.send capacity .quit ≠ [] := send_ne_nil hcap .quit
    have hterm : .term ∈ c.send capacity .quit → .term ∈ c.pipe :=
      fun hmem ↦ (mem_send hmem).resolve_right (by decide)
    grind [ChildSignals.Sound]
  | leave | join | restoreHandler | kill | look | crash =>
    obtain ⟨hphase, ⟨⟩⟩ := Option.ite_none_right_eq_some.mp hs
    grind [ChildSignals.Sound]
  | decide | checkpoint ok | deliver =>
    obtain ⟨hphase, ⟨⟩⟩ := Option.ite_none_right_eq_some.mp hs
    grind [ChildSignals.Sound, decide_, checkpoint, deliver]
  | drainAlone | drained =>
    obtain ⟨hphase, hs⟩ := Option.ite_none_right_eq_some.mp hs
    obtain ⟨gate, -, rfl⟩ := Option.map_eq_some_iff.mp hs
    grind [ChildSignals.Sound]
  | exit =>
    have hs : c.exit = some c' := hs
    grind [ChildSignals.Sound, exit]
  | write =>
    obtain ⟨⟨hwriting, halive⟩, ⟨⟩⟩ := Option.ite_none_right_eq_some.mp hs
    have hsend : c.send capacity .term ≠ [] := send_ne_nil hcap .term
    have hquit : .quit ∈ c.send capacity .term → .quit ∈ c.pipe :=
      fun hmem ↦ (mem_send hmem).resolve_right (by decide)
    have hserves : c.phase.Serves → c.phase.HandlesSigterm := ChildPhase.Serves.handlesSigterm
    grind [ChildSignals.Sound]
  | watch =>
    obtain ⟨⟨hwatching, halive⟩, hs⟩ := Option.ite_none_right_eq_some.mp hs
    grind [ChildSignals.Sound, waitForShutdown]

/-! ## The gate of calls

A signal leaves the gate and the log alone. -/

theorem step_signal (ha : a ∈ [.kill, .deliver, .look, .write, .watch])
    (hs : c.step capacity a = some c') :
    ∃ signals : ChildSignals, c' = { c with toChildSignals := signals } ∧
      signals.phase = c.phase ∧
      (¬c.phase.HandlesSigterm → signals.sigtermReceived = c.sigtermReceived) := by
  refine ⟨c'.toChildSignals, ?_⟩
  cases a with
  | kill | look | write =>
    obtain ⟨-, ⟨⟩⟩ := Option.ite_none_right_eq_some.mp hs
    exact ⟨rfl, rfl, fun _ ↦ rfl⟩
  | deliver =>
    obtain ⟨-, ⟨⟩⟩ := Option.ite_none_right_eq_some.mp hs
    rw [deliver]
    split_ifs with hphase
    · exact ⟨rfl, rfl, fun hnot ↦ absurd hphase hnot⟩
    · exact ⟨rfl, rfl, fun _ ↦ rfl⟩
  | watch =>
    obtain ⟨-, hs⟩ := Option.ite_none_right_eq_some.mp hs
    unfold waitForShutdown at hs
    split at hs
    · exact absurd hs (Option.some_ne_none c').symm
    · obtain ⟨⟩ := hs
      exact ⟨rfl, rfl, fun _ ↦ rfl⟩
    · obtain ⟨⟩ := hs
      exact ⟨rfl, rfl, fun _ ↦ rfl⟩
  | _ => simp at ha

/-- The gate of calls: when the lanes are joined nobody is inside, and the drain is alone. -/
structure Gated (c : ConnectionChild) : Prop where
  calm : c.phase ≠ .killed → ¬c.phase.Serves → c.queued = 0 ∧ c.calls.inside = 0
  free : c.phase ∈ [.starting, .serving, .leaving, .quitting, .detached, .restored] →
    c.calls.owned = false ∧ c.calls.waiters = 0
  waited : c.phase = .draining → c.calls.owned = false

theorem gated_step (h : c.Gated) (hs : c.step capacity a = some c') : c'.Gated := by
  cases a with
  | start provider ok =>
    obtain ⟨hphase, hs⟩ := Option.ite_none_right_eq_some.mp hs
    grind [Gated]
  | request restored =>
    obtain ⟨hphase, ⟨⟩⟩ := Option.ite_none_right_eq_some.mp hs
    grind [Gated, dispatch, checkpointConnectionReady]
  | beginCall =>
    obtain ⟨⟨hserves, -⟩, hs⟩ := Option.ite_none_right_eq_some.mp hs
    obtain ⟨gate, hgate, rfl⟩ := Option.map_eq_some_iff.mp hs
    obtain ⟨hopen, ⟨⟩⟩ := Option.ite_none_right_eq_some.mp hgate
    grind [Gated]
  | endCall =>
    obtain ⟨⟨hserves, -⟩, ⟨⟩⟩ := Option.ite_none_right_eq_some.mp hs
    grind [Gated, CudaCallGate.end_, Gate.leave]
  | terminateLane | leave | quit | join | restoreHandler | crash =>
    obtain ⟨hphase, ⟨⟩⟩ := Option.ite_none_right_eq_some.mp hs
    grind [Gated]
  | decide | checkpoint ok =>
    obtain ⟨hphase, ⟨⟩⟩ := Option.ite_none_right_eq_some.mp hs
    grind [Gated, decide_, checkpoint, CudaCallGate.drain, Gate.request]
  | drainAlone | drained =>
    obtain ⟨hphase, hs⟩ := Option.ite_none_right_eq_some.mp hs
    obtain ⟨gate, hgate, rfl⟩ := Option.map_eq_some_iff.mp hs
    obtain ⟨-, ⟨⟩⟩ := Option.ite_none_right_eq_some.mp hgate
    grind [Gated]
  | exit =>
    have hs : c.exit = some c' := hs
    grind [Gated, exit]
  | kill | deliver | look | write | watch =>
    obtain ⟨signals, rfl, hphase, -⟩ := step_signal (by simp) hs
    grind [Gated]

/-! ## What the provider and CUDA see

The log is kept as the list of its events. A call that has not ended has begun, so the log is not
empty while calls are under way, and the checkpoint comes when none is. -/

def restores (c : ConnectionChild) (ok : Bool) : List ChildEffect :=
  match c.connectionId with
  | some id => if c.provider then [.restore id ok] else []
  | none => []

/-- The provider's checkpoint, if there has been one. -/
def checkpoints (c : ConnectionChild) : List ChildEffect :=
  match c.phase with
  | .finished success | .exited success =>
    if c.started ∧ c.sigtermReceived ∧ c.provider then [.checkpoint c.connectionId success] else []
  | _ => []

end ConnectionChild

/-- The events of calls, so many of which have begun and not ended. -/
inductive CallEvents : ℕ → List ChildEffect → Prop where
  | nil : CallEvents 0 []
  | begin_ {n : ℕ} {events : List ChildEffect} :
      CallEvents n events → CallEvents (n + 1) (events ++ [.callBegin])
  | end_ {n : ℕ} {events : List ChildEffect} :
      CallEvents (n + 1) events → CallEvents n (events ++ [.callEnd])

theorem CallEvents.ne_nil {n : ℕ} {events : List ChildEffect} (h : CallEvents (n + 1) events) :
    events ≠ [] := by
  cases h with
  | begin_ _ => exact List.append_ne_nil_of_right_ne_nil _ (List.cons_ne_nil _ _)
  | end_ _ => exact List.append_ne_nil_of_right_ne_nil _ (List.cons_ne_nil _ _)

namespace ConnectionChild

variable {capacity : ℕ} {c c' : ConnectionChild} {a : ChildAction} {as : List ChildAction}

/-- What holds of the log: a restore, if any, then calls, then the checkpoint, if any. -/
structure Logged (c : ConnectionChild) (ok : Bool) (calls : List ChildEffect) : Prop where
  log : c.effects = c.restores ok ++ calls ++ c.checkpoints
  events : CallEvents c.calls.inside calls
  session : c.connectionId = none ∨ c.connectionId = c.session
  ready : c.connectionReady = true → ok = true ∧ c.connectionId = c.session
  notReady : c.connectionReady = false → c.queued = 0 ∧ calls = []
  unnamed : c.phase = .serving → c.connectionReady = false → c.connectionId = none

structure Underway (c : ConnectionChild) : Prop where
  starting : c.phase = .starting → c.started = false
  unstarted : c.started = false → c.phase = .starting ∨ c.phase = .killed ∨ c.phase = .exited false
  fresh : c.started = false → c.provider = false ∧ c.sigtermReceived = false ∧
    c.connectionReady = false ∧ c.connectionId = none
  told : c.phase ∈ [.draining, .owning, .drained] → c.sigtermReceived = true
  success : ∀ success, c.phase = .finished success ∨ c.phase = .exited success →
    c.started = true → success = true ∨ c.sigtermReceived = true ∧ c.provider = true

theorem Underway.withSignals {signals : ChildSignals} (h : c.Underway)
    (hphase : signals.phase = c.phase)
    (hflag : ¬c.phase.HandlesSigterm → signals.sigtermReceived = c.sigtermReceived) :
    Underway { c with toChildSignals := signals } where
  starting hstarting := h.starting (hphase ▸ hstarting)
  unstarted hunstarted := hphase ▸ h.unstarted hunstarted
  fresh hunstarted := by
    have hnot : ¬c.phase.HandlesSigterm := by
      rcases h.unstarted hunstarted with heq | heq | heq <;> exact heq ▸ id
    exact hflag hnot ▸ h.fresh hunstarted
  told hdraining := by
    have hnot : ¬c.phase.HandlesSigterm := by grind
    exact hflag hnot ▸ h.told (hphase ▸ hdraining)
  success success hfinished hstarted := by
    have hnot : ¬c.phase.HandlesSigterm := by grind
    exact hflag hnot ▸ h.success success (hphase ▸ hfinished) hstarted

theorem underway_step (h : c.Underway) (hsound : c.Sound) (hs : c.step capacity a = some c') :
    c'.Underway := by
  cases a with
  | start provider ok =>
    obtain ⟨hphase, hs⟩ := Option.ite_none_right_eq_some.mp hs
    grind [Underway]
  | request restored =>
    obtain ⟨hphase, ⟨⟩⟩ := Option.ite_none_right_eq_some.mp hs
    grind [Underway, dispatch, checkpointConnectionReady]
  | beginCall =>
    obtain ⟨⟨hserves, -⟩, hs⟩ := Option.ite_none_right_eq_some.mp hs
    obtain ⟨gate, hgate, rfl⟩ := Option.map_eq_some_iff.mp hs
    obtain ⟨hopen, ⟨⟩⟩ := Option.ite_none_right_eq_some.mp hgate
    grind [Underway]
  | endCall | terminateLane | leave | quit | join | restoreHandler | crash =>
    obtain ⟨hphase, ⟨⟩⟩ := Option.ite_none_right_eq_some.mp hs
    grind [Underway]
  | decide =>
    obtain ⟨hphase, ⟨⟩⟩ := Option.ite_none_right_eq_some.mp hs
    have := hsound.heard
    grind [Underway, decide_]
  | checkpoint ok =>
    obtain ⟨hphase, ⟨⟩⟩ := Option.ite_none_right_eq_some.mp hs
    grind [Underway, checkpoint]
  | drainAlone | drained =>
    obtain ⟨hphase, hs⟩ := Option.ite_none_right_eq_some.mp hs
    obtain ⟨gate, hgate, rfl⟩ := Option.map_eq_some_iff.mp hs
    obtain ⟨-, ⟨⟩⟩ := Option.ite_none_right_eq_some.mp hgate
    grind [Underway]
  | exit =>
    have hs : c.exit = some c' := hs
    grind [Underway, exit]
  | kill | deliver | look | write | watch =>
    obtain ⟨signals, rfl, hphase, hflag⟩ := step_signal (by simp) hs
    exact h.withSignals hphase hflag

theorem Logged.withSignals {ok : Bool} {calls : List ChildEffect} {signals : ChildSignals}
    (h : c.Logged ok calls) (hphase : signals.phase = .serving → c.phase = .serving)
    (hsame : checkpoints { c with toChildSignals := signals } = c.checkpoints) :
    Logged { c with toChildSignals := signals } ok calls where
  log := hsame ▸ h.log
  events := h.events
  session := h.session
  ready := h.ready
  notReady := h.notReady
  unnamed hserving := h.unnamed (hphase hserving)

/-- While the lanes are served there has been no checkpoint. -/
theorem checkpoints_of_serves (h : c.phase.Serves) : c.checkpoints = [] := by
  unfold checkpoints
  grind

theorem logged_dispatch {ok : Bool} {calls : List ChildEffect} (h : c.Logged ok calls)
    (hphase : c.phase = .serving) (restored : Bool) :
    ∃ ok, (c.dispatch restored).Logged ok calls := by
  have hnone : c.checkpoints = [] := checkpoints_of_serves (hphase ▸ trivial)
  cases hready : c.connectionReady with
  | true =>
    refine ⟨ok, ?_⟩
    rw [dispatch, if_pos hready]
    exact { h with notReady := fun hnot ↦ absurd (hready.symm.trans hnot) (by decide) }
  | false =>
    obtain ⟨hqueued, rfl⟩ := h.notReady hready
    have hid : c.connectionId = none := h.unnamed hphase hready
    have hlog : c.effects = [] := by
      rw [h.log, hnone, restores, hid]
      rfl
    have hevents := h.events
    refine ⟨(c.checkpointConnectionReady restored).2, ?_⟩
    constructor <;> grind [dispatch, checkpointConnectionReady, restores, checkpoints]

theorem logged_step {ok : Bool} {calls : List ChildEffect} (h : c.Logged ok calls)
    (hunderway : c.Underway) (hs : c.step capacity a = some c') (halive : c'.phase ≠ .killed) :
    ∃ ok calls, c'.Logged ok calls := by
  cases a with
  | start provider started =>
    obtain ⟨hphase, hs⟩ := Option.ite_none_right_eq_some.mp hs
    obtain ⟨hprovider, -, hready, hid⟩ := hunderway.fresh (hunderway.starting hphase)
    have hunstarted := hunderway.starting hphase
    refine ⟨ok, calls, ?_⟩
    obtain ⟨log, events, session, ready, notReady, unnamed⟩ := h
    constructor <;> grind [restores, checkpoints]
  | request restored =>
    obtain ⟨hphase, ⟨⟩⟩ := Option.ite_none_right_eq_some.mp hs
    obtain ⟨ok, h⟩ := logged_dispatch h hphase restored
    exact ⟨ok, calls, h⟩
  | beginCall =>
    obtain ⟨⟨hserves, hqueued⟩, hs⟩ := Option.ite_none_right_eq_some.mp hs
    obtain ⟨gate, hgate, rfl⟩ := Option.map_eq_some_iff.mp hs
    obtain ⟨-, ⟨⟩⟩ := Option.ite_none_right_eq_some.mp hgate
    -- a call is in a lane only after the first request, which restores
    have hready : c.connectionReady = true := by
      by_contra hnot
      exact hqueued.ne' (h.notReady (Bool.eq_false_of_not_eq_true hnot)).1
    have hnone : c.checkpoints = [] := checkpoints_of_serves hserves
    refine ⟨ok, calls ++ [.callBegin], ?_, h.events.begin_, h.session, h.ready,
      fun hnot ↦ absurd (hready.symm.trans hnot) (by decide), h.unnamed⟩
    show c.effects ++ [.callBegin] = c.restores ok ++ (calls ++ [.callBegin]) ++ c.checkpoints
    rw [h.log, hnone, List.append_nil, List.append_nil, List.append_assoc]
  | endCall =>
    obtain ⟨⟨hserves, hinside⟩, ⟨⟩⟩ := Option.ite_none_right_eq_some.mp hs
    have hgate : c.calls.end_ = { c.calls with inside := c.calls.inside - 1 } :=
      if_neg hinside.ne'
    have hevents : CallEvents (c.calls.inside - 1 + 1) calls :=
      (Nat.sub_add_cancel hinside).symm ▸ h.events
    have hready : c.connectionReady = true := by
      by_contra hnot
      exact hevents.ne_nil (h.notReady (Bool.eq_false_of_not_eq_true hnot)).2
    have hnone : c.checkpoints = [] := checkpoints_of_serves hserves
    refine ⟨ok, calls ++ [.callEnd], ?_, ?_, h.session, h.ready,
      fun hnot ↦ absurd (hready.symm.trans hnot) (by decide), h.unnamed⟩
    · show c.effects ++ [.callEnd] = c.restores ok ++ (calls ++ [.callEnd]) ++ c.checkpoints
      rw [h.log, hnone, List.append_nil, List.append_nil, List.append_assoc]
    · show CallEvents c.calls.end_.inside _
      exact hgate ▸ hevents.end_
  | terminateLane =>
    obtain ⟨⟨-, hqueued⟩, ⟨⟩⟩ := Option.ite_none_right_eq_some.mp hs
    exact ⟨ok, calls, h.log, h.events, h.session, h.ready,
      fun hnot ↦ absurd (h.notReady hnot).1 hqueued.ne', h.unnamed⟩
  | leave | quit | join | restoreHandler =>
    obtain ⟨hphase, ⟨⟩⟩ := Option.ite_none_right_eq_some.mp hs
    refine ⟨ok, calls, h.withSignals (fun hserving ↦ ChildPhase.noConfusion hserving) ?_⟩
    grind [checkpoints]
  | decide =>
    obtain ⟨hphase, ⟨⟩⟩ := Option.ite_none_right_eq_some.mp hs
    refine ⟨ok, calls, ?_⟩
    obtain ⟨log, events, session, ready, notReady, unnamed⟩ := h
    constructor <;> grind [decide_, restores, checkpoints, CudaCallGate.drain, Gate.request]
  | checkpoint success =>
    obtain ⟨hphase, ⟨⟩⟩ := Option.ite_none_right_eq_some.mp hs
    have hstarted : c.started = true := by
      by_contra hnot
      rcases hunderway.unstarted (Bool.eq_false_of_not_eq_true hnot) with heq | heq | heq <;>
        exact ChildPhase.noConfusion (hphase.symm.trans heq)
    have htold := hunderway.told
    refine ⟨ok, calls, ?_⟩
    obtain ⟨log, events, session, ready, notReady, unnamed⟩ := h
    constructor <;> grind [checkpoint, restores, checkpoints]
  | drainAlone | drained =>
    obtain ⟨hphase, hs⟩ := Option.ite_none_right_eq_some.mp hs
    obtain ⟨gate, hgate, rfl⟩ := Option.map_eq_some_iff.mp hs
    obtain ⟨-, ⟨⟩⟩ := Option.ite_none_right_eq_some.mp hgate
    refine ⟨ok, calls, ?_, h.events, h.session, h.ready, h.notReady,
      fun hserving ↦ ChildPhase.noConfusion hserving⟩
    rw [h.log]
    simp [restores, checkpoints, hphase]
  | exit =>
    have hs : c.exit = some c' := hs
    unfold exit at hs
    split at hs
    · obtain ⟨⟩ := hs
      refine ⟨ok, calls, h.withSignals (fun hserving ↦ ChildPhase.noConfusion hserving) ?_⟩
      grind [checkpoints]
    · exact absurd hs (Option.some_ne_none c').symm
  | crash =>
    obtain ⟨-, ⟨⟩⟩ := Option.ite_none_right_eq_some.mp hs
    exact absurd rfl halive
  | kill | deliver | look | write | watch =>
    obtain ⟨signals, rfl, hphase, hflag⟩ := step_signal (by simp) hs
    refine ⟨ok, calls, h.withSignals (fun hserving ↦ hphase ▸ hserving) ?_⟩
    grind [checkpoints]

/-! ## Runs

The flag is set by the delivery of SIGTERM and by nothing else, and a process that has ended takes
no step. -/

/-- SIGTERM was delivered while the handler of the child was there. -/
def TookSigterm (capacity : ℕ) (c : ConnectionChild) (as : List ChildAction) : Prop :=
  ∃ before after d, as = before ++ .deliver :: after ∧
    (connectionChild capacity).run c before = some d ∧ d.phase.HandlesSigterm

theorem tookSigterm_concat {c₀ : ConnectionChild}
    (hrun : (connectionChild capacity).run c₀ as = some c) :
    TookSigterm capacity c₀ (as ++ [a]) ↔
      TookSigterm capacity c₀ as ∨ a = .deliver ∧ c.phase.HandlesSigterm := by
  constructor
  · rintro ⟨before, after, d, heq, hbefore, hphase⟩
    rcases concat_eq_append_cons heq with ⟨rfl, rfl⟩ | ⟨after', rfl⟩
    · obtain rfl := Option.some.inj (hrun.symm.trans hbefore)
      exact Or.inr ⟨rfl, hphase⟩
    · exact Or.inl ⟨before, after', d, rfl, hbefore, hphase⟩
  · rintro (⟨before, after, d, rfl, hbefore, hphase⟩ | ⟨rfl, hphase⟩)
    · exact ⟨before, after ++ [a], d, by rw [List.append_assoc, List.cons_append], hbefore, hphase⟩
    · exact ⟨as, [], c, rfl, hrun, hphase⟩

/-- The flag is set by nothing else. -/
theorem sigtermReceived_step (hs : c.step capacity a = some c') :
    c'.sigtermReceived = true ↔
      c.sigtermReceived = true ∨ a = .deliver ∧ c.phase.HandlesSigterm := by
  cases a with
  | deliver =>
    obtain ⟨-, ⟨⟩⟩ := Option.ite_none_right_eq_some.mp hs
    unfold deliver
    split_ifs with hphase
    · exact ⟨fun _ ↦ Or.inr ⟨rfl, hphase⟩, fun _ ↦ rfl⟩
    · exact ⟨Or.inl, fun h ↦ h.resolve_right fun h ↦ hphase h.2⟩
  | request restored =>
    obtain ⟨-, ⟨⟩⟩ := Option.ite_none_right_eq_some.mp hs
    have hsame : (c.dispatch restored).sigtermReceived = c.sigtermReceived := by
      rcases c.dispatch_signals restored with heq | heq <;> rw [heq]
    rw [hsame]
    exact (or_iff_left fun h ↦ ChildAction.noConfusion h.1).symm
  | beginCall | drainAlone | drained =>
    obtain ⟨-, hs⟩ := Option.ite_none_right_eq_some.mp hs
    obtain ⟨gate, -, rfl⟩ := Option.map_eq_some_iff.mp hs
    exact (or_iff_left fun h ↦ ChildAction.noConfusion h.1).symm
  | _ =>
    have hsame : c'.sigtermReceived = c.sigtermReceived := by
      grind [ConnectionChild.step, decide_, checkpoint, exit, waitForShutdown]
    rw [hsame]
    exact (or_iff_left fun h ↦ ChildAction.noConfusion h.1).symm

theorem session_step (hs : c.step capacity a = some c') : c'.session = c.session := by
  cases a with
  | beginCall | drainAlone | drained =>
    obtain ⟨-, hs⟩ := Option.ite_none_right_eq_some.mp hs
    obtain ⟨gate, -, rfl⟩ := Option.map_eq_some_iff.mp hs
    rfl
  | _ =>
    grind [ConnectionChild.step, dispatch, checkpointConnectionReady, deliver, decide_, checkpoint,
      exit, waitForShutdown]

structure Invariant (c : ConnectionChild) : Prop where
  sound : c.Sound
  gated : c.Gated
  underway : c.Underway
  logged : c.phase ≠ .killed → ∃ ok calls, c.Logged ok calls

theorem alive_of_step (hs : c.step capacity a = some c') : c.phase.Alive := by
  by_contra hended
  have hnot : ¬c.phase.Serves := fun hserves ↦ hended hserves.alive
  cases a <;> grind [ConnectionChild.step, exit]

theorem invariant_of_run {session : Option String} (hcap : 0 < capacity)
    (hrun : (connectionChild capacity).run { session } as = some c) : c.Invariant := by
  refine (connectionChild capacity).run_invariant (I := fun c ↦ c.Invariant) ?_ ?_ hrun
  · intro c a c' h hs
    refine ⟨sound_step hcap h.sound hs, gated_step h.gated hs, underway_step h.underway h.sound hs,
      fun halive ↦ ?_⟩
    have hkilled : c.phase ≠ .killed := fun hkilled ↦ by
      have halive : c.phase.Alive := alive_of_step hs
      rw [hkilled] at halive
      exact halive
    obtain ⟨ok, calls, hlogged⟩ := h.logged hkilled
    exact logged_step hlogged h.underway hs halive
  · refine ⟨?_, ?_, ?_, fun _ ↦ ⟨true, [], ?_⟩⟩
    · constructor <;> simp [ChildPhase.Serves]
    · constructor <;> simp
    · constructor <;> simp
    · constructor <;> simp [restores, checkpoints, CallEvents.nil]

theorem sigtermReceived_of_run {session : Option String}
    (hrun : (connectionChild capacity).run { session } as = some c) :
    c.sigtermReceived = true ↔ TookSigterm capacity { session } as := by
  refine (connectionChild capacity).run_history
    (I := fun as c ↦ c.sigtermReceived = true ↔ TookSigterm capacity { session } as) ?_ ?_ hrun
  · refine ⟨nofun, ?_⟩
    rintro ⟨before, after, d, heq, -⟩
    exact absurd heq.symm (List.append_ne_nil_of_right_ne_nil _ (List.cons_ne_nil _ _))
  · intro as c a c' hbefore ih hs
    rw [sigtermReceived_step hs, tookSigterm_concat hbefore, ih]

/-- **A child that was told to stop leaves a checkpoint behind.** Whatever the order of the steps of
the main thread, the lanes, the signal handlers and the signal thread, a child that exits has asked
the provider for a checkpoint if and only if there is a provider and SIGTERM was delivered while the
handler was installed; once, after the end of the last call, under the name that was restored before
the first one; and it exits with success if and only if that worked. -/
theorem exited_of_run {session : Option String} {success : Bool} (hcap : 0 < capacity)
    (hrun : (connectionChild capacity).run { session } as = some c)
    (hexit : c.phase = .exited success) :
    (c.started = false ∧ success = false ∧ c.effects = []) ∨
      c.started = true ∧ ∃ ok calls checkpoints,
        c.effects = c.restores ok ++ calls ++ checkpoints ∧ CallEvents 0 calls ∧
        (calls ≠ [] → ok = true ∧ c.connectionId = session) ∧
        (TookSigterm capacity { session } as ∧ c.provider = true →
          checkpoints = [.checkpoint c.connectionId success]) ∧
        (¬(TookSigterm capacity { session } as ∧ c.provider = true) →
          checkpoints = [] ∧ success = true) := by
  obtain ⟨-, hgated, hunderway, hlogged⟩ := invariant_of_run hcap hrun
  obtain ⟨ok, calls, hlogged⟩ := hlogged (hexit ▸ nofun)
  have hsession : c.session = session :=
    (connectionChild capacity).run_invariant (I := fun c ↦ c.session = session)
      (fun c a c' h hs ↦ (session_step hs).trans h) rfl hrun
  cases hstarted : c.started with
  | false =>
    -- nothing was started, so the child ended before its first request
    obtain ⟨-, -, hready, hid⟩ := hunderway.fresh hstarted
    have hfailed : c.phase = .exited false := by
      rcases hunderway.unstarted hstarted with heq | heq | heq
      · exact absurd (hexit.symm.trans heq) nofun
      · exact absurd (hexit.symm.trans heq) nofun
      · exact heq
    refine Or.inl ⟨rfl, ChildPhase.exited.inj (hexit.symm.trans hfailed), ?_⟩
    rw [hlogged.log, (hlogged.notReady hready).2, restores, checkpoints, hid, hexit]
    simp [hstarted]
  | true =>
    -- the child has ended, so no call is under way, and the log has whole calls only
    have hevents : CallEvents 0 calls :=
      (hgated.calm (hexit ▸ nofun) (hexit ▸ id)).2 ▸ hlogged.events
    refine Or.inr ⟨rfl, ok, calls, c.checkpoints, hlogged.log, hevents, ?_, ?_, ?_⟩
    -- a call has run, so the connection was ready for it
    · intro hcalls
      have hready : c.connectionReady = true := by
        by_contra hnot
        exact hcalls (hlogged.notReady (Bool.eq_false_of_not_eq_true hnot)).2
      exact hsession ▸ hlogged.ready hready
    · rw [← sigtermReceived_of_run hrun]
      intro htold
      rw [checkpoints, hexit]
      exact if_pos ⟨hstarted, htold⟩
    · rw [← sigtermReceived_of_run hrun]
      intro hnot
      refine ⟨?_, (hunderway.success success (Or.inr hexit) hstarted).resolve_right hnot⟩
      rw [checkpoints, hexit]
      exact if_neg fun h ↦ hnot h.2

/-- SIGTERM comes while the first call runs. -/
def toldRun : List ChildAction :=
  [.start true true, .request true, .beginCall, .kill, .deliver, .look, .write, .watch, .leave,
    .endCall, .quit, .join, .restoreHandler, .decide, .drainAlone, .drained, .checkpoint true,
    .exit]

theorem exited_of_run_told :
    ∃ c, (connectionChild 1).run { session := some "a" } toldRun = some c ∧ ∃ ok calls,
      c.effects = c.restores ok ++ calls ++ [.checkpoint c.connectionId true] := by
  have hrun : ((connectionChild 1).run { session := some "a" } toldRun).map
      (fun c ↦ (c.phase, c.started, c.provider)) = some (.exited true, true, true) := by
    decide +kernel
  obtain ⟨c, hc, hfields⟩ := Option.map_eq_some_iff.mp hrun
  obtain ⟨hphase, hstarted, hprovider⟩ : c.phase = .exited true ∧ c.started = true ∧
      c.provider = true := by simpa using hfields
  have hbefore : ((connectionChild 1).run { session := some "a" } (toldRun.take 4)).map
      (fun c ↦ c.phase) = some .serving := by decide +kernel
  obtain ⟨d, hd, hserving⟩ := Option.map_eq_some_iff.mp hbefore
  have htook : TookSigterm 1 { session := some "a" } toldRun :=
    ⟨toldRun.take 4, toldRun.drop 5, d, rfl, hd, hserving ▸ trivial⟩
  refine ⟨c, hc, ?_⟩
  rcases exited_of_run (by decide) hc hphase with
    ⟨hnot, -⟩ | ⟨-, ok, calls, checkpoints, hlog, -, -, htold, -⟩
  · exact absurd (hnot.symm.trans hstarted) (by decide)
  · exact ⟨ok, calls, htold ⟨htook, hprovider⟩ ▸ hlog⟩

end ConnectionChild

/-! ## The way out

Every step of the two threads counts, and no other step adds one. What was delivered shuts the
connection down in at most three steps: the handler looks at the descriptor, writes, and the thread
reads. -/

/-- What the main thread has left to do before it exits, once the lanes are joined. -/
def ChildPhase.stepsLeft : ChildPhase → ℕ
  | quitting => 7
  | detached => 6
  | restored => 5
  | draining => 4
  | owning => 3
  | drained => 2
  | finished _ => 1
  | _ => 0

theorem ChildPhase.not_serves_of_stepsLeft {p : ChildPhase} (h : 0 < p.stepsLeft) : ¬p.Serves := by
  cases p with
  | serving | leaving => exact absurd h (Nat.lt_irrefl 0)
  | _ => exact id

/-- A step of the main thread on its way out, or of the signal thread. -/
def ChildAction.IsOwn : ChildAction → Bool
  | join | restoreHandler | decide | drainAlone | drained | checkpoint _ | exit | watch => true
  | _ => false

namespace ConnectionChild

variable {capacity : ℕ} {c c' : ConnectionChild} {a : ChildAction} {as : List ChildAction}

/-- What the main thread and the signal thread have left to do. -/
def stepsLeft (c : ConnectionChild) : ℕ :=
  c.phase.stepsLeft + if c.watching then 1 else 0

/-- The main thread is on its way out. -/
def Leaves (c : ConnectionChild) : Prop := 0 < c.phase.stepsLeft

/-- On the way out every own step counts, and no other step adds one. -/
theorem stepsLeft_step (h : c.Leaves) (hs : c.step capacity a = some c') :
    c'.stepsLeft + (if a.IsOwn then 1 else 0) ≤ c.stepsLeft ∧ (c'.Leaves ∨ ¬c'.phase.Alive) := by
  have hnot : ¬c.phase.Serves := ChildPhase.not_serves_of_stepsLeft h
  cases a with
  -- these are steps of the loop, which the child has left
  | start provider ok | request restored | leave =>
    obtain ⟨hphase, -⟩ := Option.ite_none_right_eq_some.mp hs
    exact absurd h (by simp [Leaves, hphase, ChildPhase.stepsLeft])
  | beginCall | endCall | terminateLane =>
    obtain ⟨⟨hserves, -⟩, -⟩ := Option.ite_none_right_eq_some.mp hs
    exact absurd hserves hnot
  | quit =>
    obtain ⟨⟨hphase, -⟩, -⟩ := Option.ite_none_right_eq_some.mp hs
    exact absurd h (by simp [Leaves, hphase, ChildPhase.stepsLeft])
  -- each step on the way out takes one off the steps that are left
  | join =>
    obtain ⟨⟨hphase, hwatching⟩, ⟨⟩⟩ := Option.ite_none_right_eq_some.mp hs
    grind [stepsLeft, Leaves, ChildPhase.stepsLeft, ChildAction.IsOwn]
  | restoreHandler =>
    obtain ⟨hphase, ⟨⟩⟩ := Option.ite_none_right_eq_some.mp hs
    grind [stepsLeft, Leaves, ChildPhase.stepsLeft, ChildAction.IsOwn]
  | decide | checkpoint ok =>
    obtain ⟨hphase, ⟨⟩⟩ := Option.ite_none_right_eq_some.mp hs
    grind [stepsLeft, Leaves, ChildPhase.stepsLeft, ChildAction.IsOwn, decide_, checkpoint]
  | drainAlone | drained =>
    obtain ⟨hphase, hs⟩ := Option.ite_none_right_eq_some.mp hs
    obtain ⟨gate, -, rfl⟩ := Option.map_eq_some_iff.mp hs
    grind [stepsLeft, Leaves, ChildPhase.stepsLeft, ChildAction.IsOwn]
  | exit =>
    have hs : c.exit = some c' := hs
    grind [stepsLeft, Leaves, ChildPhase.stepsLeft, ChildAction.IsOwn, exit]
  -- signals come from outside, and take nothing off
  | kill | look | write | crash =>
    obtain ⟨hphase, ⟨⟩⟩ := Option.ite_none_right_eq_some.mp hs
    grind [stepsLeft, Leaves, ChildPhase.stepsLeft, ChildAction.IsOwn]
  | deliver =>
    obtain ⟨hphase, ⟨⟩⟩ := Option.ite_none_right_eq_some.mp hs
    grind [stepsLeft, Leaves, ChildPhase.stepsLeft, ChildAction.IsOwn, deliver]
  | watch =>
    obtain ⟨hphase, hs⟩ := Option.ite_none_right_eq_some.mp hs
    grind [stepsLeft, Leaves, ChildPhase.stepsLeft, ChildAction.IsOwn, waitForShutdown]

/-- On the way out the next step is possible. -/
theorem Invariant.next (hinv : c.Invariant) (h : c.Leaves) :
    ∃ a, a.IsOwn ∧ (c.step capacity a).isSome := by
  obtain ⟨hsound, hgated, -, -⟩ := hinv
  cases hphase : c.phase with
  | quitting =>
    cases hwatching : c.watching with
    | false => exact ⟨.join, rfl, by simp [step, hphase, hwatching]⟩
    | true =>
      -- the signal thread still reads, and has been written to
      obtain ⟨event, rest, hpipe⟩ := List.exists_cons_of_ne_nil (hsound.wakes hphase hwatching)
      refine ⟨.watch, rfl, ?_⟩
      cases event <;> simp [step, hphase, hwatching, waitForShutdown, hpipe, ChildPhase.Alive]
  | detached => exact ⟨.restoreHandler, rfl, by simp [step, hphase]⟩
  | restored => exact ⟨.decide, rfl, by simp [step, hphase]⟩
  | draining =>
    -- the gate has no owner yet
    refine ⟨.drainAlone, rfl, ?_⟩
    simp [step, hphase, CudaCallGate.drainAlone, Gate.own, hgated.waited hphase]
  | owning =>
    have hkilled : c.phase ≠ .killed := fun hp ↦ ChildPhase.noConfusion (hphase.symm.trans hp)
    have hinside : c.calls.inside = 0 := (hgated.calm hkilled (hphase ▸ id)).2
    refine ⟨.drained, rfl, ?_⟩
    simp [step, hphase, CudaCallGate.drained, hinside]
  | drained => exact ⟨.checkpoint true, rfl, by simp [step, hphase]⟩
  | finished success => exact ⟨.exit, rfl, by simp [step, hphase, exit]⟩
  | _ => exact absurd h (by simp [Leaves, hphase, ChildPhase.stepsLeft])

/-- **The way out is never blocked.** Once the lanes are joined, the main thread and the signal
thread together have a bounded number of steps left, however they and the signals take turns; and
until the process has ended, one of them has a step that is possible. -/
theorem leaves_of_run {session : Option String} {bs : List ChildAction} (hcap : 0 < capacity)
    (hrun : (connectionChild capacity).run { session } as = some c) (hleaves : c.Leaves)
    (hafter : (connectionChild capacity).run c bs = some c') :
    bs.countP ChildAction.IsOwn + c'.stepsLeft ≤ c.stepsLeft ∧
      (c'.phase.Alive → ∃ a, a.IsOwn ∧ (c'.step capacity a).isSome) := by
  obtain ⟨hcount, hway⟩ : bs.countP ChildAction.IsOwn + c'.stepsLeft ≤ c.stepsLeft ∧
      (c'.Leaves ∨ ¬c'.phase.Alive) := by
    refine (connectionChild capacity).run_history
      (I := fun bs c' ↦ bs.countP ChildAction.IsOwn + c'.stepsLeft ≤ c.stepsLeft ∧
        (c'.Leaves ∨ ¬c'.phase.Alive)) ?_ ?_ hafter
    · exact ⟨(Nat.zero_add _).le, Or.inl hleaves⟩
    · rintro bs c₁ a c₂ - ⟨hcount, hway⟩ hs
      obtain ⟨hstep, hway⟩ := stepsLeft_step (hway.resolve_right fun h ↦ h (alive_of_step hs)) hs
      refine ⟨?_, hway⟩
      rw [List.countP_append, List.countP_singleton]
      omega
  refine ⟨hcount, fun halive ↦ ?_⟩
  have hrun' : (connectionChild capacity).run { session } (as ++ bs) = some c' := by
    rw [Machine.run_append, hrun]
    exact hafter
  exact (invariant_of_run hcap hrun').next (hway.resolve_right fun h ↦ h halive)

/-- The lanes are joined, and the signal thread has read what it was told. -/
theorem leaves_of_run_joined :
    ∃ c c', (connectionChild 1).run { session := some "a" } (toldRun.take 11) = some c ∧
      (connectionChild 1).run c [.join] = some c' ∧ 1 + c'.stepsLeft ≤ c.stepsLeft := by
  have hbefore : ((connectionChild 1).run { session := some "a" } (toldRun.take 11)).map
      (fun c ↦ c.phase) = some .quitting := by decide +kernel
  have hafter : (((connectionChild 1).run { session := some "a" } (toldRun.take 11)).bind
      fun c ↦ (connectionChild 1).run c [.join]).isSome := by decide +kernel
  obtain ⟨c, hc, hquitting⟩ := Option.map_eq_some_iff.mp hbefore
  rw [hc] at hafter
  obtain ⟨c', hc'⟩ := Option.isSome_iff_exists.mp hafter
  have hleaves : c.Leaves := by
    rw [Leaves, hquitting]
    decide
  exact ⟨c, c', hc, hc', (leaves_of_run (by decide) hc hleaves hc').1⟩

theorem closes_of_pipe (capacity : ℕ) (h : c.Sound) (hserves : c.phase.Serves)
    (hwatching : c.watching = true) (hpipe : c.pipe ≠ []) :
    ∃ c', (connectionChild capacity).run c [.watch] = some c' ∧ c'.connectionOpen = false := by
  obtain ⟨event, rest, hcons⟩ := List.exists_cons_of_ne_nil hpipe
  cases event with
  | term =>
    refine ⟨{ c with pipe := rest, watching := false, checkpointRequested := true,
                     connectionOpen := false }, ?_, rfl⟩
    have hstep : c.step capacity .watch = c.waitForShutdown := if_pos ⟨hwatching, hserves.alive⟩
    simp only [Machine.run, connectionChild, hstep, waitForShutdown, hcons, Option.bind_some]
  | quit =>
    have hquit : .quit ∈ c.pipe := hcons ▸ List.mem_cons_self
    exact absurd hserves (h.quits hquit).1

theorem closes_of_writing (hcap : 0 < capacity) (h : c.Sound) (hserves : c.phase.Serves)
    (hwatching : c.watching = true) (hwriting : 0 < c.writing) :
    ∃ c', (connectionChild capacity).run c [.write, .watch] = some c' ∧
      c'.connectionOpen = false := by
  have hstep : c.step capacity .write = some { c with
      writing := c.writing - 1
      pipe := if c.phase.HandlesSigterm then c.send capacity .term else c.pipe } :=
    if_pos ⟨hwriting, hserves.alive⟩
  rw [if_pos hserves.handlesSigterm] at hstep
  obtain ⟨c', hrun, hclosed⟩ :=
    closes_of_pipe capacity (sound_step hcap h hstep) hserves hwatching (send_ne_nil hcap .term)
  refine ⟨c', ?_, hclosed⟩
  rw [Machine.run_cons]
  exact Option.bind_eq_some_iff.mpr ⟨_, hstep, hrun⟩

theorem closes_of_looking (hcap : 0 < capacity) (h : c.Sound) (hserves : c.phase.Serves)
    (hwatching : c.watching = true) (hlooking : 0 < c.looking) :
    ∃ c', (connectionChild capacity).run c [.look, .write, .watch] = some c' ∧
      c'.connectionOpen = false := by
  have hset : c.phase.WriteFdSet := hserves.writeFdSet
  have hstep : c.step capacity .look = some { c with
      looking := c.looking - 1
      writing := if c.phase.WriteFdSet then c.writing + 1 else c.writing } :=
    if_pos ⟨hlooking, hserves.alive⟩
  rw [if_pos hset] at hstep
  obtain ⟨c', hrun, hclosed⟩ :=
    closes_of_writing hcap (sound_step hcap h hstep) hserves hwatching (Nat.succ_pos _)
  refine ⟨c', ?_, hclosed⟩
  rw [Machine.run_cons]
  exact Option.bind_eq_some_iff.mpr ⟨_, hstep, hrun⟩

/-- **A signal that was delivered is acted on.** While the connection of a child that was told to
stop is open, at most three steps of a handler and of the signal thread shut it down. -/
theorem closes_of_run {session : Option String} (hcap : 0 < capacity)
    (hrun : (connectionChild capacity).run { session } as = some c) (hserves : c.phase.Serves)
    (htold : TookSigterm capacity { session } as) (hopen : c.connectionOpen = true) :
    ∃ bs, bs <:+ [.look, .write, .watch] ∧
      ∃ c', (connectionChild capacity).run c bs = some c' ∧ c'.connectionOpen = false := by
  have hsound : c.Sound := (invariant_of_run hcap hrun).sound
  have hreceived : c.sigtermReceived = true := (sigtermReceived_of_run hrun).mpr htold
  have hnotClosed : c.connectionOpen ≠ false := by rw [hopen]; decide
  have hwatching : c.watching = true := by
    by_contra hnot
    exact hnotClosed (hsound.shut hserves (Bool.eq_false_of_not_eq_true hnot))
  -- whatever is on its way is the beginning of a way to the signal thread
  by_cases hpipe : c.pipe = []
  · rcases Nat.eq_zero_or_pos c.writing with hwriting | hwriting
    · rcases Nat.eq_zero_or_pos c.looking with hlooking | hlooking
      · exact absurd (hsound.told hserves hreceived hlooking hwriting hpipe) hnotClosed
      · exact ⟨_, List.suffix_rfl, closes_of_looking hcap hsound hserves hwatching hlooking⟩
    · exact ⟨_, ⟨[.look], rfl⟩, closes_of_writing hcap hsound hserves hwatching hwriting⟩
  · exact ⟨_, ⟨[.look, .write], rfl⟩, closes_of_pipe capacity hsound hserves hwatching hpipe⟩

/-- The flag has just been set. -/
theorem closes_of_run_delivered :
    ∃ c, (connectionChild 1).run { session := some "a" } (toldRun.take 5) = some c ∧
      ∃ bs c', (connectionChild 1).run c bs = some c' ∧ c'.connectionOpen = false := by
  have hdelivered : ((connectionChild 1).run { session := some "a" } (toldRun.take 5)).map
      (fun c ↦ (c.phase, c.connectionOpen)) = some (.serving, true) := by decide +kernel
  have hbefore : ((connectionChild 1).run { session := some "a" } (toldRun.take 4)).map
      (fun c ↦ c.phase) = some .serving := by decide +kernel
  obtain ⟨c, hc, hfields⟩ := Option.map_eq_some_iff.mp hdelivered
  obtain ⟨d, hd, hserving⟩ := Option.map_eq_some_iff.mp hbefore
  obtain ⟨hphase, hopen⟩ := Prod.mk.inj hfields
  have htook : TookSigterm 1 { session := some "a" } (toldRun.take 5) :=
    ⟨toldRun.take 4, [], d, rfl, hd, hserving ▸ trivial⟩
  obtain ⟨bs, -, c', hrun, hclosed⟩ :=
    closes_of_run (by decide) hc (hphase ▸ trivial) htook hopen
  exact ⟨c, hc, bs, c', hrun, hclosed⟩

end ConnectionChild

end Lupine
