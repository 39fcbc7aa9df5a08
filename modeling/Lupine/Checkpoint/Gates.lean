import Lupine.Cuda
import Lupine.Foundation.Gate
import Lupine.Foundation.Machine

/-!
# The gates of a checkpoint

A checkpoint closes two gates. `cuda_call_gate` is passed by every handler that the server
dispatches; `capture_gate` by every begin of a stream capture, which CUDA then opens or not, and it
also counts the captures that are open. Beside the gate the client keeps the count
`lupine_active_stream_captures`, by which it answers status queries without asking CUDA: the two
counts change one after the other, and neither changes together with CUDA.

## Captures

CUDA opens a capture when a begin succeeds and closes it when an end returns success or one of two
errors. The answer to a begin or an end may be lost, and the client then reports an error. A capture
may be ended by any thread, also while the begin that opened it has not returned yet.

## Counting threads

Each count is compared with the number of threads in certain phases: a begin that opened a capture
which the gate does not count yet, an end that closed one which the gate or the client still counts.
The open captures are then accounted for by the gate's count and these numbers, which is what the
promises of the gate and of the client's count come from. The two gates know nothing of each other.
-/

open Foundation

namespace Lupine

/-- `CUDA_ERROR_STREAM_CAPTURE_INVALIDATED`. -/
abbrev CUresult.errorStreamCaptureInvalidated : CUresult := .error 901

/-- `CUDA_ERROR_STREAM_CAPTURE_UNJOINED`. -/
abbrev CUresult.errorStreamCaptureUnjoined : CUresult := .error 904

/-- What CUDA's `cuStreamEndCapture` returns when the stream leaves capture mode. -/
def CUresult.leavesCapture : CUresult → Bool
  | .success | .error 901 | .error 904 => true
  | _ => false

/-- The results that `lupine_complete_stream_end_capture` takes for the end of a capture. -/
def CUresult.completesStreamEndCapture (result : CUresult) : Bool :=
  result = .success ∨ result = .errorStreamCaptureInvalidated ∨
    result = .errorStreamCaptureUnjoined

/-! ## The gates

Both gates are instances of one gate, with an owner that waits for those inside to leave. -/

/-- `cuda_call_gate`: `active_calls_` are inside, `drain_waiters_` wait, and it is owned while
`draining_`. -/
abbrev CudaCallGate := Gate

namespace CudaCallGate

variable (gate : CudaCallGate)

/-- `begin`. -/
def begin : Option CudaCallGate := gate.enter

/-- `end`. -/
def end_ : CudaCallGate := gate.leave

/-- `drain`, up to the first wait. -/
def drain : CudaCallGate := gate.request

/-- `drain`, between the two waits. -/
def drainAlone : Option CudaCallGate := gate.own

/-- `drain`, after the second wait. -/
def drained : Option CudaCallGate := if gate.inside = 0 then some gate else none

/-- `resume`. -/
def resume : CudaCallGate := Gate.resume gate

end CudaCallGate

/-- `capture_gate`: `admitted_begins_` are inside, `checkpoint_waiters_` wait, and it is owned while
`checkpoint_active_`. -/
structure CaptureGate extends Gate where
  /-- `active_captures_`. -/
  activeCaptures : ℕ := 0
  deriving DecidableEq, Repr

namespace CaptureGate

variable (gate : CaptureGate)

/-- `begin`. -/
def begin : Option CaptureGate := gate.enter.map fun g ↦ { gate with toGate := g }

/-- `begin_complete`. -/
def beginComplete (started : Bool) : CaptureGate :=
  if gate.inside = 0 then gate
  else
    { gate with
      toGate := gate.leave
      activeCaptures := if started then gate.activeCaptures + 1 else gate.activeCaptures }

/-- `end`. -/
def end_ : CaptureGate :=
  if gate.activeCaptures = 0 then gate
  else { gate with activeCaptures := gate.activeCaptures - 1 }

/-- `wait_for_captures`, up to the first wait. -/
def waitForCaptures : CaptureGate := { gate with toGate := gate.request }

/-- `wait_for_captures`, between the two waits. -/
def waitAlone : Option CaptureGate := gate.own.map fun g ↦ { gate with toGate := g }

/-- `wait_for_captures`, after the second wait. -/
def waited : Option CaptureGate :=
  if gate.inside = 0 ∧ gate.activeCaptures = 0 then some gate else none

/-- `resume_captures`. -/
def resumeCaptures : CaptureGate := { gate with toGate := Gate.resume gate.toGate }

end CaptureGate

/-! ## Threads

A thread is in a begin, in an end, in a checkpoint, or idle. An end knows whether it has closed a
capture. -/

/-- Where a thread is in a begin or an end of a capture, or in a checkpoint of captures. -/
inductive CapturePhase where
  | outside
  /-- `capture_begin` has returned. -/
  | beginning
  /-- CUDA's answer to a begin is there: success. -/
  | began (capture : ℕ)
  /-- The begin has failed, though CUDA may have opened a capture. -/
  | failed (capture : Option ℕ)
  /-- `capture_begin_complete` has returned, and the client's count comes next. -/
  | completed (capture : ℕ)
  /-- CUDA's answer to an end is there: the capture is closed. -/
  | ended
  /-- `capture_end` has returned, and the client's count comes next. -/
  | uncounted
  | waiting
  | owning
  | holding
  deriving DecidableEq, Repr

def CapturePhase.atGate : CapturePhase → GatePhase
  | beginning | began _ | failed _ => .inside
  | outside | completed _ | ended | uncounted => .outside
  | waiting => .waiting
  | owning => .owning
  | holding => .holding

structure CheckpointState (threads : ℕ) where
  calls : CudaCallGate := {}
  callPhase : Fin threads → GatePhase := fun _ ↦ .outside
  captures : CaptureGate := {}
  capturePhase : Fin threads → CapturePhase := fun _ ↦ .outside
  /-- `lupine_active_stream_captures`. -/
  activeStreamCaptures : ℤ := 0
  /-- The captures that are open. -/
  opened : List ℕ := []
  nextCapture : ℕ := 0
  /-- The open captures whose begin call has returned. -/
  returned : List ℕ := []
  /-- What `returned` was whenever a status query was answered without asking CUDA. -/
  answeredNone : List (List ℕ) := []

inductive CheckpointAction (threads : ℕ) where
  | cudaCallBegin (t : Fin threads)
  | cudaCallEnd (t : Fin threads)
  | drainCudaCalls (t : Fin threads)
  | drainAlone (t : Fin threads)
  | drained (t : Fin threads)
  | resumeCudaCalls (t : Fin threads)
  | captureBegin (t : Fin threads)
  | beginCapture (t : Fin threads) (opens lost : Bool)
  | captureBeginComplete (t : Fin threads)
  | count (t : Fin threads)
  | endCapture (t : Fin threads) (capture : ℕ) (result : CUresult) (lost : Bool)
  | captureEnd (t : Fin threads)
  | uncount (t : Fin threads)
  | isCapturing (t : Fin threads) (known : Bool)
  | waitForCaptures (t : Fin threads)
  | waitAlone (t : Fin threads)
  | waited (t : Fin threads)
  | resumeCaptures (t : Fin threads)
  deriving DecidableEq

namespace CheckpointState

variable {threads : ℕ} (st : CheckpointState threads) (t : Fin threads)

def gotoCall (gate : CudaCallGate) (x : GatePhase) : CheckpointState threads :=
  { st with calls := gate, callPhase := Function.update st.callPhase t x }

def gotoCapture (gate : CaptureGate) (x : CapturePhase) : CheckpointState threads :=
  { st with captures := gate, capturePhase := Function.update st.capturePhase t x }

/-- `cuda_call_begin`. -/
def cudaCallBegin : Option (CheckpointState threads) :=
  if st.callPhase t = .outside then st.calls.begin.map fun gate ↦ st.gotoCall t gate .inside
  else none

/-- `capture_begin`. -/
def captureBegin : Option (CheckpointState threads) :=
  if st.capturePhase t = .outside then
    st.captures.begin.map fun gate ↦ st.gotoCapture t gate .beginning
  else none

/-- CUDA's begin, and the answer that the client gets. -/
def beginCapture (opens lost : Bool) : Option (CheckpointState threads) :=
  if st.capturePhase t = .beginning then
    if opens then
      some { st.gotoCapture t st.captures
          (if lost then .failed (some st.nextCapture) else .began st.nextCapture) with
        opened := st.nextCapture :: st.opened
        nextCapture := st.nextCapture + 1 }
    else some (st.gotoCapture t st.captures (.failed none))
  else none

def return_ (capture : ℕ) : CheckpointState threads :=
  { st with
    returned := if capture ∈ st.opened then capture :: st.returned else st.returned }

/-- `lupine_capture_begin_guard::complete`, up to the client's count; a failed begin returns. -/
def captureBeginComplete : Option (CheckpointState threads) :=
  match st.capturePhase t with
  | .began capture => some (st.gotoCapture t (st.captures.beginComplete true) (.completed capture))
  | .failed none => some (st.gotoCapture t (st.captures.beginComplete false) .outside)
  | .failed (some capture) =>
    some ((st.gotoCapture t (st.captures.beginComplete false) .outside).return_ capture)
  | _ => none

/-- `lupine_active_stream_captures.fetch_add`, and the begin returns. -/
def count : Option (CheckpointState threads) :=
  match st.capturePhase t with
  | .completed capture =>
    some ({ st.gotoCapture t st.captures .outside with
      activeStreamCaptures := st.activeStreamCaptures + 1 }.return_ capture)
  | _ => none

def close (capture : ℕ) (result : CUresult) : Option (CheckpointState threads) :=
  if result.leavesCapture then
    if capture ∈ st.opened then
      some { st with
        opened := st.opened.erase capture
        returned := st.returned.erase capture }
    else none
  else some st

/-- `cuStreamEndCapture`, with `lupine_complete_stream_end_capture` unless the answer is lost. -/
def endCapture (capture : ℕ) (result : CUresult) (lost : Bool) :
    Option (CheckpointState threads) :=
  if st.capturePhase t = .outside then
    (st.close capture result).map fun st ↦
      st.gotoCapture t st.captures
        (if !lost && result.completesStreamEndCapture then .ended else .outside)
  else none

/-- The call of `capture_end` in `lupine_complete_stream_end_capture`. -/
def captureEnd : Option (CheckpointState threads) :=
  if st.capturePhase t = .ended then some (st.gotoCapture t st.captures.end_ .uncounted) else none

/-- `lupine_active_stream_captures.fetch_sub`, and the end returns. -/
def uncount : Option (CheckpointState threads) :=
  if st.capturePhase t = .uncounted then
    some { st.gotoCapture t st.captures .outside with
      activeStreamCaptures := st.activeStreamCaptures - 1 }
  else none

/-- `cuStreamIsCapturing`, for a stream that the client knows or does not. -/
def isCapturing (known : Bool) : Option (CheckpointState threads) :=
  if st.capturePhase t = .outside then
    if st.activeStreamCaptures = 0 ∧ known = true then
      some { st with answeredNone := st.returned :: st.answeredNone }
    else some st
  else none

def step : CheckpointAction threads → Option (CheckpointState threads)
  | .cudaCallBegin t => st.cudaCallBegin t
  | .cudaCallEnd t =>
    if st.callPhase t = .inside then some (st.gotoCall t st.calls.end_ .outside) else none
  | .drainCudaCalls t =>
    if st.callPhase t = .outside then some (st.gotoCall t st.calls.drain .waiting) else none
  | .drainAlone t =>
    if st.callPhase t = .waiting then
      st.calls.drainAlone.map fun gate ↦ st.gotoCall t gate .owning
    else none
  | .drained t =>
    if st.callPhase t = .owning then st.calls.drained.map fun gate ↦ st.gotoCall t gate .holding
    else none
  | .resumeCudaCalls t =>
    if st.callPhase t = .holding then some (st.gotoCall t st.calls.resume .outside) else none
  | .captureBegin t => st.captureBegin t
  | .beginCapture t opens lost => st.beginCapture t opens lost
  | .captureBeginComplete t => st.captureBeginComplete t
  | .count t => st.count t
  | .endCapture t capture result lost => st.endCapture t capture result lost
  | .captureEnd t => st.captureEnd t
  | .uncount t => st.uncount t
  | .isCapturing t known => st.isCapturing t known
  | .waitForCaptures t =>
    if st.capturePhase t = .outside then
      some (st.gotoCapture t st.captures.waitForCaptures .waiting)
    else none
  | .waitAlone t =>
    if st.capturePhase t = .waiting then
      st.captures.waitAlone.map fun gate ↦ st.gotoCapture t gate .owning
    else none
  | .waited t =>
    if st.capturePhase t = .owning then
      st.captures.waited.map fun gate ↦ st.gotoCapture t gate .holding
    else none
  | .resumeCaptures t =>
    if st.capturePhase t = .holding then
      some (st.gotoCapture t st.captures.resumeCaptures .outside)
    else none

end CheckpointState

def checkpointed (threads : ℕ) :
    Machine (CheckpointState threads) (CheckpointAction threads) where
  step := CheckpointState.step

/-! ## What the gates are for

The condition has two parts: no answer to a begin that opened a capture is lost, and a capture is
closed only once its begin has returned. -/

namespace CheckpointState

variable {threads : ℕ}

/-- What holds of the gate of calls. -/
structure CallsGated (st : CheckpointState threads) : Prop where
  drained : ∀ t, st.callPhase t = .holding → ∀ u, st.callPhase u ≠ .inside
  oneOwner : ∀ t u, (st.callPhase t).atOwning = 1 → (st.callPhase u).atOwning = 1 → t = u
  notOvertaken : ∀ t, (st.callPhase t).Closes → ∀ u,
    (checkpointed threads).step st (.cudaCallBegin u) = none

/-- What holds of the gate of captures. -/
structure CapturesGated (st : CheckpointState threads) : Prop where
  waited : ∀ t, st.capturePhase t = .holding →
    st.opened = [] ∧ ∀ u, (st.capturePhase u).atGate ≠ .inside
  oneOwner : ∀ t u, (st.capturePhase t).atGate.atOwning = 1 →
    (st.capturePhase u).atGate.atOwning = 1 → t = u
  notOvertaken : ∀ t, (st.capturePhase t).atGate.Closes → ∀ u,
    (checkpointed threads).step st (.captureBegin u) = none

/-- A query that was answered without asking CUDA met no open capture whose begin had returned. -/
def AnsweredRight (st : CheckpointState threads) : Prop :=
  ∀ captures ∈ st.answeredNone, captures = []

end CheckpointState

/-- No answer to a begin that opened a capture is lost, and a capture is closed only once its begin
has returned. -/
def CheckpointAction.Orderly {threads : ℕ} (st : CheckpointState threads) :
    CheckpointAction threads → Prop
  | beginCapture _ opens lost => opens = true → lost = false
  | endCapture _ capture result _ => result.leavesCapture = true → capture ∈ st.returned
  | _ => True

instance CheckpointAction.decidableOrderly {threads : ℕ} (st : CheckpointState threads) :
    ∀ action : CheckpointAction threads, Decidable (action.Orderly st)
  | .beginCapture .. => inferInstanceAs (Decidable (_ → _))
  | .endCapture .. => inferInstanceAs (Decidable (_ → _))
  | .cudaCallBegin _ | .cudaCallEnd _ | .drainCudaCalls _ | .drainAlone _ | .drained _
  | .resumeCudaCalls _ | .captureBegin _ | .captureBeginComplete _ | .count _ | .captureEnd _
  | .uncount _ | .isCapturing .. | .waitForCaptures _ | .waitAlone _ | .waited _
  | .resumeCaptures _ => inferInstanceAs (Decidable True)

/-! ## The invariant

The numbers of threads are sums over the phases. -/

namespace CapturePhase

/-- Begins that opened a capture which the gate does not count yet. -/
def atOpened : CapturePhase → ℤ
  | began _ => 1
  | _ => 0

/-- Ends that closed a capture which the gate still counts. -/
def atEnded : CapturePhase → ℤ
  | ended => 1
  | _ => 0

/-- Ends that closed a capture which the client still counts. -/
def atClosed : CapturePhase → ℤ
  | ended | uncounted => 1
  | _ => 0

theorem atOpened_le (p : CapturePhase) : p.atOpened ≤ p.atGate.atInside := by
  cases p <;> simp [atOpened, atGate, GatePhase.atInside]

theorem atEnded_nonneg (p : CapturePhase) : 0 ≤ p.atEnded := by
  cases p <;> simp [atEnded]

theorem atClosed_nonneg (p : CapturePhase) : 0 ≤ p.atClosed := by
  cases p <;> simp [atClosed]

end CapturePhase

namespace CheckpointState

variable {threads : ℕ} {st st' : CheckpointState threads} {t : Fin threads}

def gatePhase (st : CheckpointState threads) (t : Fin threads) : GatePhase :=
  (st.capturePhase t).atGate

/-- The gates agree with the threads, and no open capture escapes the counts. -/
structure Sound (st : CheckpointState threads) : Prop where
  calls : st.calls.Agrees st.callPhase
  captures : st.captures.Agrees st.gatePhase
  /-- The gate counts every open capture, or the thread that began it is inside. -/
  opened : (st.opened.length : ℤ) + total CapturePhase.atEnded st.capturePhase
    ≤ st.captures.activeCaptures + total CapturePhase.atOpened st.capturePhase
  empty : ∀ t, st.capturePhase t = .holding → st.captures.activeCaptures = 0
  /-- The client counts every open capture whose begin has returned. -/
  returned : (st.returned.length : ℤ) + total CapturePhase.atClosed st.capturePhase
    ≤ st.activeStreamCaptures
  answered : st.AnsweredRight
  /-- No begin reports a failure though CUDA opened a capture. -/
  reported : ∀ t capture, st.capturePhase t ≠ .failed (some capture)

theorem Sound.callsGated (h : st.Sound) : st.CallsGated := by
  constructor
  · exact fun t ht u ↦ h.calls.not_inside ht
  · exact fun t u ht hu ↦ h.calls.owner_unique ht hu
  · intro t ht u
    have hbegin : st.calls.begin = none := h.calls.enter_eq_none ht
    show st.cudaCallBegin u = none
    rw [cudaCallBegin, hbegin, Option.map_none, ite_self]

theorem Sound.capturesGated (h : st.Sound) : st.CapturesGated := by
  constructor
  · intro t ht
    have hholding : st.gatePhase t = .holding := congrArg CapturePhase.atGate ht
    refine ⟨?_, fun u ↦ h.captures.not_inside hholding⟩
    have hopened := h.opened
    have hinside := h.captures.inside
    have hle : total CapturePhase.atOpened st.capturePhase
        ≤ total (fun p : CapturePhase ↦ p.atGate.atInside) st.capturePhase :=
      total_mono CapturePhase.atOpened_le
    have hended : 0 ≤ total CapturePhase.atEnded st.capturePhase :=
      total_nonneg CapturePhase.atEnded_nonneg
    rw [h.empty t ht] at hopened
    rw [h.captures.empty t hholding] at hinside
    change _ = total (fun p : CapturePhase ↦ p.atGate.atInside) st.capturePhase at hinside
    exact List.length_eq_zero_iff.mp (by omega)
  · exact fun t u ht hu ↦ h.captures.owner_unique ht hu
  · intro t ht u
    have henter : st.captures.enter = none := h.captures.enter_eq_none ht
    show st.captureBegin u = none
    rw [captureBegin, CaptureGate.begin, henter, Option.map_none, Option.map_none, ite_self]

/-! ### Steps

A step changes the phase of one thread, and with it one of the numbers and one of the counts. The
client knows the results with which CUDA closes a capture. -/

theorem gatePhase_update (st' : CheckpointState threads) {y : CapturePhase}
    (h : st'.capturePhase = Function.update st.capturePhase t y) :
    st'.gatePhase = Function.update st.gatePhase t y.atGate := by
  funext u
  rw [gatePhase, h]
  by_cases hu : u = t
  · rw [hu, Function.update_self, Function.update_self]
  · rw [Function.update_of_ne hu, Function.update_of_ne hu, gatePhase]

theorem Sound.move (h : st.Sound) {x y : CapturePhase} (hx : st.capturePhase t = x)
    (hcalls : st'.calls = st.calls ∧ st'.callPhase = st.callPhase)
    (hphase : st'.capturePhase = Function.update st.capturePhase t y)
    (hgate : st'.captures.Agrees (Function.update st.gatePhase t y.atGate))
    (hopened : (st'.opened.length : ℤ) + y.atEnded + st.captures.activeCaptures + x.atOpened
      ≤ st.opened.length + x.atEnded + st'.captures.activeCaptures + y.atOpened)
    (hempty : ∀ u, st.capturePhase u = .holding → st'.captures.activeCaptures = 0)
    (hy : y = .holding → st'.captures.activeCaptures = 0)
    (hreported : ∀ capture, y ≠ .failed (some capture))
    (hreturned : (st'.returned.length : ℤ) + y.atClosed + st.activeStreamCaptures
      ≤ st.returned.length + x.atClosed + st'.activeStreamCaptures)
    (hanswered : st'.answeredNone = st.answeredNone) : st'.Sound := by
  have hcount := h.opened
  have hclient := h.returned
  refine ⟨?_, ?_, ?_, ?_, ?_, ?_, ?_⟩
  · rw [hcalls.1, hcalls.2]
    exact h.calls
  · rw [gatePhase_update st' hphase]
    exact hgate
  · rw [hphase, total_update, total_update, hx]
    omega
  · intro u hu
    rw [hphase] at hu
    by_cases hut : u = t
    · rw [hut, Function.update_self] at hu
      exact hy hu
    · rw [Function.update_of_ne hut] at hu
      exact hempty u hu
  · rw [hphase, total_update, hx]
    omega
  · rw [AnsweredRight, hanswered]
    exact h.answered
  · intro u capture hu
    rw [hphase] at hu
    by_cases hut : u = t
    · rw [hut, Function.update_self] at hu
      exact hreported capture hu
    · rw [Function.update_of_ne hut] at hu
      exact h.reported u capture hu

theorem Sound.gotoCall (h : st.Sound) {gate : CudaCallGate} {x : GatePhase}
    (hgate : gate.Agrees (Function.update st.callPhase t x)) : (st.gotoCall t gate x).Sound :=
  ⟨hgate, h.captures, h.opened, h.empty, h.returned, h.answered, h.reported⟩

theorem Sound.stays (h : st.Sound) {x y : CapturePhase} (hx : st.capturePhase t = x)
    (hsame : y.atGate = x.atGate) :
    st.captures.Agrees (Function.update st.gatePhase t y.atGate) := by
  have hself : Function.update st.gatePhase t y.atGate = st.gatePhase := by
    rw [hsame, ← hx]
    exact Function.update_eq_self ..
  rw [hself]
  exact h.captures

theorem beginComplete_of_inside (h : st.Sound) (ht : st.gatePhase t = .inside) (started : Bool) :
    (st.captures.beginComplete started).toGate = st.captures.leave ∧
      (st.captures.beginComplete started).activeCaptures
        = if started then st.captures.activeCaptures + 1 else st.captures.activeCaptures := by
  rw [CaptureGate.beginComplete, if_neg (h.captures.inside_pos ht).ne']
  exact ⟨rfl, rfl⟩

theorem Sound.captureBegin (h : st.Sound) (hstep : st.captureBegin t = some st') : st'.Sound := by
  rw [CheckpointState.captureBegin] at hstep
  split_ifs at hstep with hout
  rw [CaptureGate.begin, Option.map_map] at hstep
  obtain ⟨g, hg, rfl⟩ := Option.map_eq_some_iff.mp hstep
  have hgate : st.gatePhase t = .outside := congrArg CapturePhase.atGate hout
  exact h.move hout ⟨rfl, rfl⟩ rfl (h.captures.enter hgate hg) le_rfl h.empty
    (fun hy ↦ (nomatch hy)) (fun _ hy ↦ (nomatch hy)) le_rfl rfl

theorem Sound.beginCapture (h : st.Sound) {opens lost : Bool} (hlost : opens = true → lost = false)
    (hstep : st.beginCapture t opens lost = some st') : st'.Sound := by
  rw [CheckpointState.beginCapture] at hstep
  split_ifs at hstep with hbeginning hopens hnot
  · exact absurd (hnot.symm.trans (hlost hopens)) (by decide)
  · obtain rfl := Option.some.inj hstep
    refine h.move hbeginning ⟨rfl, rfl⟩ rfl (h.stays hbeginning rfl) ?_ h.empty
      (fun hy ↦ (nomatch hy)) (fun _ hy ↦ (nomatch hy)) le_rfl rfl
    show ((st.nextCapture :: st.opened).length : ℤ) + 0 + st.captures.activeCaptures + 0
      ≤ st.opened.length + 0 + st.captures.activeCaptures + 1
    rw [List.length_cons]
    omega
  · obtain rfl := Option.some.inj hstep
    exact h.move hbeginning ⟨rfl, rfl⟩ rfl (h.stays hbeginning rfl) le_rfl h.empty
      (fun hy ↦ (nomatch hy)) (fun _ hy ↦ (nomatch hy)) le_rfl rfl

/-- Nobody holds the gate while a begin is inside. -/
theorem Sound.not_holding (h : st.Sound) (ht : st.gatePhase t = .inside) (u : Fin threads) :
    st.capturePhase u ≠ .holding :=
  fun hu ↦ h.captures.not_inside (congrArg CapturePhase.atGate hu) ht

theorem Sound.captureBeginComplete (h : st.Sound) (hstep : st.captureBeginComplete t = some st') :
    st'.Sound := by
  rw [CheckpointState.captureBeginComplete] at hstep
  split at hstep
  · next capture hbegan =>
    obtain rfl := Option.some.inj hstep
    have hinside : st.gatePhase t = .inside := congrArg CapturePhase.atGate hbegan
    obtain ⟨hleave, hactive⟩ := beginComplete_of_inside h hinside true
    refine h.move hbegan ⟨rfl, rfl⟩ rfl ?_ ?_ (fun u hu ↦ absurd hu (h.not_holding hinside u))
      (fun hy ↦ (nomatch hy)) (fun _ hy ↦ (nomatch hy)) le_rfl rfl
    · show Gate.Agrees (st.captures.beginComplete true).toGate _
      rw [hleave]
      exact h.captures.leave hinside
    · show (st.opened.length : ℤ) + 0 + st.captures.activeCaptures + 1
        ≤ st.opened.length + 0 + (st.captures.beginComplete true).activeCaptures + 0
      rw [hactive, if_pos rfl]
      omega
  · next hfailed =>
    obtain rfl := Option.some.inj hstep
    have hinside : st.gatePhase t = .inside := congrArg CapturePhase.atGate hfailed
    obtain ⟨hleave, hactive⟩ := beginComplete_of_inside h hinside false
    have hsame : (st.captures.beginComplete false).activeCaptures = st.captures.activeCaptures :=
      hactive
    refine h.move hfailed ⟨rfl, rfl⟩ rfl ?_ ?_ (fun u hu ↦ absurd hu (h.not_holding hinside u))
      (fun hy ↦ (nomatch hy)) (fun _ hy ↦ (nomatch hy)) le_rfl rfl
    · show Gate.Agrees (st.captures.beginComplete false).toGate _
      rw [hleave]
      exact h.captures.leave hinside
    · show (st.opened.length : ℤ) + 0 + st.captures.activeCaptures + 0
        ≤ st.opened.length + 0 + (st.captures.beginComplete false).activeCaptures + 0
      rw [hsame]
  · next capture hfailed => exact absurd hfailed (h.reported t capture)
  · exact (nomatch hstep)

theorem Sound.count (h : st.Sound) (hstep : st.count t = some st') : st'.Sound := by
  rw [CheckpointState.count] at hstep
  split at hstep
  · next capture hcompleted =>
    obtain rfl := Option.some.inj hstep
    refine h.move hcompleted ⟨rfl, rfl⟩ rfl (h.stays hcompleted rfl) le_rfl h.empty
      (fun hy ↦ (nomatch hy)) (fun _ hy ↦ (nomatch hy)) ?_ rfl
    have hlen : (if capture ∈ st.opened then capture :: st.returned else st.returned).length
        ≤ st.returned.length + 1 := by
      split_ifs
      · exact le_rfl
      · exact Nat.le_succ _
    show ((if capture ∈ st.opened then capture :: st.returned else st.returned).length : ℤ) + 0
        + st.activeStreamCaptures ≤ st.returned.length + 0 + (st.activeStreamCaptures + 1)
    omega
  · exact (nomatch hstep)

/-- An end that closes a capture takes it off both lists. -/
theorem close_cases {capture : ℕ} {result : CUresult}
    (hreturned : result.leavesCapture = true → capture ∈ st.returned)
    (hstep : st.close capture result = some st') :
    st' = { st with opened := st'.opened, returned := st'.returned } ∧
      (result.leavesCapture = true ∧ st'.opened.length + 1 = st.opened.length ∧
          st'.returned.length + 1 = st.returned.length ∨
        result.leavesCapture = false ∧ st' = st) := by
  rw [close] at hstep
  split_ifs at hstep with hleaves hopened
  · obtain rfl := Option.some.inj hstep
    have hmem := hreturned hleaves
    refine ⟨rfl, Or.inl ⟨hleaves, ?_, ?_⟩⟩
    · exact List.length_erase_add_one hopened
    · exact List.length_erase_add_one hmem
  · obtain rfl := Option.some.inj hstep
    exact ⟨rfl, Or.inr ⟨eq_false_of_ne_true hleaves, rfl⟩⟩

theorem completesStreamEndCapture_eq (result : CUresult) :
    result.completesStreamEndCapture = result.leavesCapture := by
  rw [CUresult.completesStreamEndCapture, CUresult.leavesCapture.eq_def]
  split
  · rfl
  · rfl
  · rfl
  · next hsuccess hinvalidated hunjoined =>
    refine decide_eq_false ?_
    rintro (h | h | h)
    · exact hsuccess h
    · exact hinvalidated h
    · exact hunjoined h

theorem Sound.endCapture (h : st.Sound) {capture : ℕ} {result : CUresult} {lost : Bool}
    (hreturned : result.leavesCapture = true → capture ∈ st.returned)
    (hstep : st.endCapture t capture result lost = some st') : st'.Sound := by
  by_cases hout : st.capturePhase t = .outside
  · rw [CheckpointState.endCapture, if_pos hout, completesStreamEndCapture_eq] at hstep
    obtain ⟨st₁, hclose, rfl⟩ := Option.map_eq_some_iff.mp hstep
    obtain ⟨hst₁, ⟨hleaves, hopened, hclosed⟩ | ⟨hstays, rfl⟩⟩ := close_cases hreturned hclose
    · rw [hst₁, hleaves, Bool.and_true]
      by_cases hlost : lost = true
      · rw [hlost]
        refine h.move (y := .outside) hout ⟨rfl, rfl⟩ rfl (h.stays hout rfl) ?_ h.empty
          (fun hy ↦ (nomatch hy)) (fun _ hy ↦ (nomatch hy)) ?_ rfl
        · show (st₁.opened.length : ℤ) + 0 + st.captures.activeCaptures + 0
            ≤ st.opened.length + 0 + st.captures.activeCaptures + 0
          omega
        · show (st₁.returned.length : ℤ) + 0 + st.activeStreamCaptures
            ≤ st.returned.length + 0 + st.activeStreamCaptures
          omega
      · rw [eq_false_of_ne_true hlost]
        refine h.move (y := .ended) hout ⟨rfl, rfl⟩ rfl (h.stays hout rfl) ?_ h.empty
          (fun hy ↦ (nomatch hy)) (fun _ hy ↦ (nomatch hy)) ?_ rfl
        · show (st₁.opened.length : ℤ) + 1 + st.captures.activeCaptures + 0
            ≤ st.opened.length + 0 + st.captures.activeCaptures + 0
          omega
        · show (st₁.returned.length : ℤ) + 1 + st.activeStreamCaptures
            ≤ st.returned.length + 0 + st.activeStreamCaptures
          omega
    · rw [hstays, Bool.and_false]
      exact h.move hout ⟨rfl, rfl⟩ rfl (h.stays hout rfl) le_rfl h.empty (fun hy ↦ (nomatch hy))
        (fun _ hy ↦ (nomatch hy)) le_rfl rfl
  · rw [CheckpointState.endCapture, if_neg hout] at hstep
    exact (nomatch hstep)

theorem Sound.captureEnd (h : st.Sound) (hstep : st.captureEnd t = some st') : st'.Sound := by
  rw [CheckpointState.captureEnd] at hstep
  split_ifs at hstep with hended
  obtain rfl := Option.some.inj hstep
  have hgate : st.captures.end_.toGate = st.captures.toGate := by
    rw [CaptureGate.end_]
    split_ifs <;> rfl
  have hactive : st.captures.end_.activeCaptures = st.captures.activeCaptures - 1 := by
    rw [CaptureGate.end_]
    split_ifs with hzero
    · rw [hzero]
    · rfl
  have hempty : ∀ u, st.capturePhase u = .holding → st.captures.end_.activeCaptures = 0 := by
    intro u hu
    rw [hactive, h.empty u hu]
  refine h.move hended ⟨rfl, rfl⟩ rfl ?_ ?_ hempty (fun hy ↦ (nomatch hy))
    (fun _ hy ↦ (nomatch hy)) le_rfl rfl
  · show Gate.Agrees st.captures.end_.toGate _
    rw [hgate]
    exact h.stays hended rfl
  · show (st.opened.length : ℤ) + 0 + st.captures.activeCaptures + 0
      ≤ st.opened.length + 1 + st.captures.end_.activeCaptures + 0
    rw [hactive]
    omega

theorem Sound.uncount (h : st.Sound) (hstep : st.uncount t = some st') : st'.Sound := by
  rw [CheckpointState.uncount] at hstep
  split_ifs at hstep with huncounted
  obtain rfl := Option.some.inj hstep
  refine h.move huncounted ⟨rfl, rfl⟩ rfl (h.stays huncounted rfl) le_rfl h.empty
    (fun hy ↦ (nomatch hy)) (fun _ hy ↦ (nomatch hy)) ?_ rfl
  show (st.returned.length : ℤ) + 0 + st.activeStreamCaptures
    ≤ st.returned.length + 1 + (st.activeStreamCaptures - 1)
  omega

/-- The client's count is zero only when no open capture's begin has returned. -/
theorem Sound.isCapturing (h : st.Sound) {known : Bool}
    (hstep : st.isCapturing t known = some st') : st'.Sound := by
  rw [CheckpointState.isCapturing] at hstep
  split_ifs at hstep with hout hnone
  · obtain rfl := Option.some.inj hstep
    refine ⟨h.calls, h.captures, h.opened, h.empty, h.returned, ?_, h.reported⟩
    intro captures hmem
    rcases List.mem_cons.mp hmem with rfl | hmem
    · have hreturned := h.returned
      have hclosed : 0 ≤ total CapturePhase.atClosed st.capturePhase :=
        total_nonneg CapturePhase.atClosed_nonneg
      rw [hnone.1] at hreturned
      exact List.length_eq_zero_iff.mp (by omega)
    · exact h.answered captures hmem
  · obtain rfl := Option.some.inj hstep
    exact h

/-! ### The checkpoint's own steps

While a begin is inside, nobody holds the gate. -/

theorem Sound.waitForCaptures (h : st.Sound) (hout : st.capturePhase t = .outside) :
    (st.gotoCapture t st.captures.waitForCaptures .waiting).Sound :=
  h.move hout ⟨rfl, rfl⟩ rfl (h.captures.request (congrArg CapturePhase.atGate hout)) le_rfl h.empty
    (fun hy ↦ (nomatch hy)) (fun _ hy ↦ (nomatch hy)) le_rfl rfl

theorem Sound.waitAlone (h : st.Sound) (hwaiting : st.capturePhase t = .waiting)
    {gate : CaptureGate} (hgate : st.captures.waitAlone = some gate) :
    (st.gotoCapture t gate .owning).Sound := by
  obtain ⟨g, hg, rfl⟩ := Option.map_eq_some_iff.mp hgate
  exact h.move hwaiting ⟨rfl, rfl⟩ rfl (h.captures.own (congrArg CapturePhase.atGate hwaiting) hg)
    le_rfl h.empty (fun hy ↦ (nomatch hy)) (fun _ hy ↦ (nomatch hy)) le_rfl rfl

theorem Sound.waited (h : st.Sound) (howning : st.capturePhase t = .owning) {gate : CaptureGate}
    (hgate : st.captures.waited = some gate) : (st.gotoCapture t gate .holding).Sound := by
  rw [CaptureGate.waited] at hgate
  split_ifs at hgate with hnone
  obtain rfl := Option.some.inj hgate
  exact h.move howning ⟨rfl, rfl⟩ rfl
    (h.captures.hold (congrArg CapturePhase.atGate howning) hnone.1) le_rfl h.empty
    (fun _ ↦ hnone.2) (fun _ hy ↦ (nomatch hy)) le_rfl rfl

theorem Sound.resumeCaptures (h : st.Sound) (hholding : st.capturePhase t = .holding) :
    (st.gotoCapture t st.captures.resumeCaptures .outside).Sound :=
  h.move hholding ⟨rfl, rfl⟩ rfl (h.captures.resume (congrArg CapturePhase.atGate hholding)) le_rfl
    h.empty (fun hy ↦ (nomatch hy)) (fun _ hy ↦ (nomatch hy)) le_rfl rfl

theorem Sound.cudaCallBegin (h : st.Sound) (hstep : st.cudaCallBegin t = some st') : st'.Sound := by
  rw [CheckpointState.cudaCallBegin] at hstep
  split_ifs at hstep with hout
  obtain ⟨gate, hgate, rfl⟩ := Option.map_eq_some_iff.mp hstep
  exact h.gotoCall (h.calls.enter hout hgate)

theorem Sound.step (h : st.Sound) {action : CheckpointAction threads} (horderly : action.Orderly st)
    (hstep : st.step action = some st') : st'.Sound := by
  rcases action with t | t | t | t | t | t | t | ⟨t, opens, lost⟩ | t | t |
    ⟨t, capture, result, lost⟩ | t | t | ⟨t, known⟩ | t | t | t | t
  · exact h.cudaCallBegin hstep
  · obtain ⟨hinside, rfl⟩ := Option.ite_some_none_eq_some.mp hstep
    exact h.gotoCall (h.calls.leave hinside)
  · obtain ⟨hout, rfl⟩ := Option.ite_some_none_eq_some.mp hstep
    exact h.gotoCall (h.calls.request hout)
  · obtain ⟨hwaiting, hstep⟩ := Option.ite_none_right_eq_some.mp hstep
    obtain ⟨gate, hgate, rfl⟩ := Option.map_eq_some_iff.mp hstep
    exact h.gotoCall (h.calls.own hwaiting hgate)
  · obtain ⟨howning, hstep⟩ := Option.ite_none_right_eq_some.mp hstep
    obtain ⟨gate, hgate, rfl⟩ := Option.map_eq_some_iff.mp hstep
    obtain ⟨hnone, rfl⟩ := Option.ite_some_none_eq_some.mp hgate
    exact h.gotoCall (h.calls.hold howning hnone)
  · obtain ⟨hholding, rfl⟩ := Option.ite_some_none_eq_some.mp hstep
    exact h.gotoCall (h.calls.resume hholding)
  · exact h.captureBegin hstep
  · exact h.beginCapture horderly hstep
  · exact h.captureBeginComplete hstep
  · exact h.count hstep
  · exact h.endCapture horderly hstep
  · exact h.captureEnd hstep
  · exact h.uncount hstep
  · exact h.isCapturing hstep
  · obtain ⟨hout, rfl⟩ := Option.ite_some_none_eq_some.mp hstep
    exact h.waitForCaptures hout
  · obtain ⟨hwaiting, hstep⟩ := Option.ite_none_right_eq_some.mp hstep
    obtain ⟨gate, hgate, rfl⟩ := Option.map_eq_some_iff.mp hstep
    exact h.waitAlone hwaiting hgate
  · obtain ⟨howning, hstep⟩ := Option.ite_none_right_eq_some.mp hstep
    obtain ⟨gate, hgate, rfl⟩ := Option.map_eq_some_iff.mp hstep
    exact h.waited howning hgate
  · obtain ⟨hholding, rfl⟩ := Option.ite_some_none_eq_some.mp hstep
    exact h.resumeCaptures hholding

theorem sound_init : ({} : CheckpointState threads).Sound := by
  have htotal : ∀ weight : CapturePhase → ℤ, weight .outside = 0 →
      total weight ({} : CheckpointState threads).capturePhase = 0 :=
    fun weight hweight ↦ total_eq_zero fun _ ↦ hweight
  refine ⟨Gate.agrees_init fun _ ↦ rfl, Gate.agrees_init fun _ ↦ rfl, ?_, fun _ _ ↦ rfl, ?_,
    fun captures h ↦ (nomatch h), fun _ _ h ↦ (nomatch h)⟩
  · rw [htotal _ rfl, htotal _ rfl]
    rfl
  · rw [htotal _ rfl]
    rfl

end CheckpointState

/-! ## The runs -/

/-- **Both gates keep what they promise, and the count of captures too**, in every interleaving of
any number of threads in which a capture is closed only once its begin has returned, and the client
hears of every capture that was opened. -/
theorem checkpoint_gates_keep {threads : ℕ} {actions : List (CheckpointAction threads)}
    {st : CheckpointState threads}
    (hrun : ((checkpointed threads).restrict fun st action ↦ action.Orderly st).run {} actions
      = some st) :
    st.CallsGated ∧ st.CapturesGated ∧ st.AnsweredRight := by
  have hsound : st.Sound := by
    refine Machine.run_invariant _ ?_ CheckpointState.sound_init hrun
    intro st action st' hst hstep
    obtain ⟨horderly, hstep⟩ := Machine.step_restrict.mp hstep
    exact hst.step horderly hstep
  exact ⟨hsound.callsGated, hsound.capturesGated, hsound.answered⟩

/-- Two captures and a call, and a checkpoint of both gates that has to wait for them. -/
theorem checkpoint_gates_keep_twoThreads :
    ∃ st : CheckpointState 2,
      ((checkpointed 2).restrict fun st action ↦ action.Orderly st).run {}
        [.cudaCallBegin 0, .captureBegin 0, .beginCapture 0 true false, .waitForCaptures 1,
          .captureBeginComplete 0, .waitAlone 1, .count 0, .isCapturing 0 true,
          .endCapture 0 0 (.error 908) false, .endCapture 0 0 .success false, .captureEnd 0,
          .waited 1, .uncount 0, .isCapturing 0 true, .drainCudaCalls 1, .drainAlone 1,
          .cudaCallEnd 0, .drained 1, .resumeCudaCalls 1, .resumeCaptures 1] = some st ∧
      st.CallsGated ∧ st.CapturesGated ∧ st.AnsweredRight := by
  refine (Option.isSome_iff_exists.mp ?_).imp fun st hrun ↦ ⟨hrun, checkpoint_gates_keep hrun⟩
  decide +kernel

/-- While a begin has not returned, another thread ends its capture, in relaxed mode. The end takes
away the count of the first capture, and a query is answered with none while that one is open. -/
theorem early_end_uncounts :
    ∃ st : CheckpointState 2, (checkpointed 2).run {}
      [.captureBegin 0, .beginCapture 0 true false, .captureBeginComplete 0, .count 0,
        .captureBegin 0, .beginCapture 0 true false, .endCapture 1 1 .success false,
        .captureEnd 1, .uncount 1, .isCapturing 1 true] = some st ∧
      st.opened = [0] ∧ st.answeredNone = [[0]] ∧ ¬st.AnsweredRight := by
  refine ⟨_, rfl, rfl, rfl, fun h ↦ ?_⟩
  exact absurd (h [0] (List.mem_singleton_self _)) (by decide)

end Lupine
