import Lupine.Cuda
import Lupine.Foundation.BufferHistory
import Lupine.Foundation.Machine
import Lupine.Foundation.Sweep
import Lupine.Transport.WindowHold

/-!
# Staging of asynchronous host-to-device copies

The payload of an asynchronous copy is read into pinned memory and copied from there by a DMA that
outlives the request. Chunks go through a ring of slots; when no slot comes free in time the rest of
the payload goes into one spill buffer of its own. A slot or a spill is used again, or freed, when
the event behind its copies is seen to be complete, and it is given up when that cannot be proved:
the call that submits a copy may report an old failure, and the event may fail to be recorded or
queried.

A buffer is modelled by the calls made about it since it was allocated, so that whether it may be
used again is a question about the calls to the driver and not about the states the server keeps.
The payload itself, and the waits and time limits between two attempts to acquire a slot, are left
open.
-/

namespace Lupine

open Foundation

/-! ## Slots and spills

A buffer has the record of the calls made about it. What is handed out or freed is noted with its
record at that moment. -/

/-- `LUPINE_ASYNC_HTOD_SLOT_COUNT`. -/
def asyncHtodSlotCount : ℕ := 4

/-- `LUPINE_ASYNC_HTOD_SLOT_BYTES`. -/
def asyncHtodSlotBytes : ℕ := 8 * 1024 * 1024

/-- `lupine_async_htod_state`. -/
inductive AsyncHtodState where
  | available
  | inFlight
  | quarantined
  deriving DecidableEq, Repr

/-- `lupine_async_htod_slot`; `completion` says that the event is not null. -/
structure AsyncHtodSlot where
  ptr : Option BufferHistory := none
  size : ℕ := 0
  allocationContext : CUcontext := 0
  completion : Bool := false
  eventContext : CUcontext := 0
  state : AsyncHtodState := .available
  heldWindowBytes : ℕ := 0
  deriving DecidableEq, Repr

/-- `lupine_async_htod_spill`. -/
structure AsyncHtodSpill where
  ptr : Option BufferHistory := none
  allocationContext : CUcontext := 0
  completion : Bool := false
  eventContext : CUcontext := 0
  completionRecorded : Bool := false
  workQueued : Bool := false
  heldWindowBytes : ℕ := 0
  deriving DecidableEq, Repr

/-- What must not happen to a buffer while a copy from it runs, with the calls made up to then. -/
inductive BufferUse where
  | handedOut (calls : BufferHistory)
  | freed (calls : BufferHistory)
  deriving DecidableEq, Repr

def BufferUse.calls : BufferUse → BufferHistory
  | handedOut calls => calls
  | freed calls => calls

/-- What all slots and spills work on: the window, and the record of the buffers handed out or
freed, the latest in front. -/
structure StagingShared where
  window : H2Window := {}
  uses : List BufferUse := []
  deriving DecidableEq, Repr

def noteCall (call : BufferCall) (ptr : Option BufferHistory) : Option BufferHistory :=
  ptr.map (call :: ·)

/-- What the result of `cuEventQuery` says of the event. -/
def progressOf (result : CUresult) : Progress :=
  if result = .success then .reached else if result = .errorNotReady then .running else .failed

/-! ## Calls on one slot or spill

Each function of the source works on one slot or spill, and on the window. Three loops go over all
of them, and their bodies are here. -/

/-- `lupine_release_staging_window`; the caller clears the count. -/
def StagingShared.releaseStagingWindow (e : StagingShared) (held : ℕ) : StagingShared :=
  { e with window := e.window.release held }

/-- A buffer is given to a request to be filled. -/
def StagingShared.handOut (e : StagingShared) (ptr : Option BufferHistory) : StagingShared :=
  { e with uses := (ptr.map .handedOut).toList ++ e.uses }

/-- `lupine_async_htod_free_host`: when the context cannot be made current, nothing is freed. -/
def StagingShared.asyncHtodFreeHost (e : StagingShared) (ptr : Option BufferHistory)
    (switched : Bool) : StagingShared :=
  if switched then { e with uses := (ptr.map .freed).toList ++ e.uses } else e

/-- `lupine_async_htod_query`; the last result is `CUDA_ERROR_INVALID_HANDLE`. -/
def asyncHtodQuery (completion : Bool) (result : CUresult) : CUresult :=
  if completion then result else .error 400

/-- What the driver answers in a sweep over the slots and the spills: to the query of each event,
and whether a context could be made current to free a buffer in it. -/
structure SweepAnswers where
  slotQuery : ℕ → CUresult
  slotSwitched : ℕ → Bool
  spillQuery : ℕ → CUresult
  spillSwitched : ℕ → Bool

namespace AsyncHtodSlot

variable (slot : AsyncHtodSlot) (e : StagingShared)

def asked (result : CUresult) : AsyncHtodSlot :=
  { slot with ptr := noteCall (.poll (progressOf result)) slot.ptr }

def reopen (result : CUresult) : AsyncHtodSlot := { slot.asked result with state := .available }

/-- A slot whose event cannot be recorded or queried is kept for good. -/
def giveUp : AsyncHtodSlot × StagingShared :=
  ({ slot with state := .quarantined, heldWindowBytes := 0 },
    e.releaseStagingWindow slot.heldWindowBytes)

/-- The loop body of `lupine_async_htod_reclaim` for slots. -/
def reclaim (context : CUcontext) (result : CUresult) : AsyncHtodSlot × StagingShared :=
  if slot.state ≠ .inFlight ∨ slot.eventContext ≠ context ∨ slot.completion = false then (slot, e)
  else if result = .success then
    ({ slot.reopen result with heldWindowBytes := 0 }, e.releaseStagingWindow slot.heldWindowBytes)
  else if result ≠ .errorNotReady then (slot.asked result).giveUp e
  else (slot.asked result, e)

/-- `lupine_async_htod_reset_available_slot`. -/
def resetAvailable (switched : Bool) : AsyncHtodSlot × StagingShared :=
  if slot.state ≠ .available then (slot, e)
  else ({}, e.asyncHtodFreeHost (noteCall .unmark slot.ptr) switched)

structure PrepareAnswers where
  switched : Bool
  allocated : Bool
  created : Bool

/-- The first step of `lupine_async_htod_prepare_slot`: a buffer that does not fit is given up. -/
def fit (context : CUcontext) (slotBytes : ℕ) (switched : Bool) : AsyncHtodSlot × StagingShared :=
  if slot.ptr.isSome ∧ (slot.allocationContext ≠ context ∨ slot.size < slotBytes) then
    slot.resetAvailable e switched
  else (slot, e)

/-- The second step: a slot without a buffer gets one. -/
def allocate (context : CUcontext) (slotBytes : ℕ) (allocated : Bool) : Bool × AsyncHtodSlot :=
  if slot.ptr.isSome then (true, slot)
  else if allocated then
    (true, { slot with ptr := some [], size := slotBytes, allocationContext := context })
  else (false, slot)

/-- `lupine_async_htod_destroy_event`, by which the marker is lost. -/
def destroyEvent : AsyncHtodSlot :=
  { slot with completion := false, ptr := noteCall .unmark slot.ptr }

/-- The last step: the event is one of the context. -/
def createEvent (context : CUcontext) (created : Bool) : Bool × AsyncHtodSlot :=
  let kept := if slot.completion ∧ slot.eventContext ≠ context then slot.destroyEvent else slot
  if kept.completion then (true, kept)
  else if created then (true, { kept with completion := true, eventContext := context })
  else (false, kept)

/-- `lupine_async_htod_prepare_slot`. -/
def prepare (context : CUcontext) (slotBytes : ℕ) (answers : PrepareAnswers) :
    Bool × AsyncHtodSlot × StagingShared :=
  if slot.state ≠ .available then (false, slot, e)
  else
    let fitted := slot.fit e context slotBytes answers.switched
    let allocated := fitted.1.allocate context slotBytes answers.allocated
    if allocated.1 then
      let ready := allocated.2.createEvent context answers.created
      (ready.1, ready.2, fitted.2)
    else (false, allocated.2, fitted.2)

/-- `lupine_async_htod_publish_slot`. -/
def publish (result : CUresult) : AsyncHtodSlot × StagingShared :=
  if result = .success then
    ({ slot with ptr := noteCall (.mark true) slot.ptr, state := .inFlight }, e)
  else { slot with ptr := noteCall (.mark false) slot.ptr }.giveUp e

/-- The end of the loop body of `lupine_async_htod_retire_context`, for a slot that is idle. -/
def drop (context : CUcontext) (switched : Bool) : AsyncHtodSlot × StagingShared :=
  let released := e.releaseStagingWindow slot.heldWindowBytes
  if slot.allocationContext = context then
    ({}, released.asyncHtodFreeHost slot.destroyEvent.ptr switched)
  else ({ slot.destroyEvent with eventContext := 0, heldWindowBytes := 0 }, released)

/-- The loop body of `lupine_async_htod_retire_context` for slots. -/
def retire (context : CUcontext) (result : CUresult) (switched : Bool) :
    AsyncHtodSlot × StagingShared :=
  if slot.allocationContext ≠ context ∧ slot.eventContext ≠ context then (slot, e)
  else
    match slot.state with
    | .available => slot.drop e context switched
    | .quarantined => (slot, e)
    | .inFlight =>
      -- a context that cannot be made current answers for the event
      let result := asyncHtodQuery slot.completion result
      if result = .errorNotReady then (slot.asked result, e)
      else if result ≠ .success then (slot.asked result).giveUp e
      else (slot.reopen result).drop e context switched

/-- The loop body of `lupine_async_htod_forget_context` for slots. -/
def forget (context : CUcontext) : AsyncHtodSlot × StagingShared :=
  if slot.allocationContext = context ∨ slot.eventContext = context then
    ({}, e.releaseStagingWindow slot.heldWindowBytes)
  else (slot, e)

end AsyncHtodSlot

namespace AsyncHtodSpill

variable (spill : AsyncHtodSpill) (e : StagingShared)

/-- How a spill ends, and all that `lupine_async_htod_discard_spill` does. -/
def discard (switched : Bool) : StagingShared :=
  (e.releaseStagingWindow spill.heldWindowBytes).asyncHtodFreeHost (noteCall .unmark spill.ptr)
    switched

def asked (result : CUresult) : AsyncHtodSpill :=
  { spill with ptr := noteCall (.poll (progressOf result)) spill.ptr }

/-- A spill whose event cannot be queried is kept for good. -/
def giveUp : AsyncHtodSpill × StagingShared :=
  ({ spill with completionRecorded := false, heldWindowBytes := 0 },
    e.releaseStagingWindow spill.heldWindowBytes)

/-- What both sweeps do with the answer to a query. -/
def answered (result : CUresult) (switched : Bool) : Option AsyncHtodSpill × StagingShared :=
  if result = .errorNotReady then (some (spill.asked result), e)
  else if result ≠ .success then
    (some ((spill.asked result).giveUp e).1, ((spill.asked result).giveUp e).2)
  else (none, (spill.asked result).discard e switched)

/-- The loop body of `lupine_async_htod_reclaim` for spills. -/
def reclaim (context : CUcontext) (result : CUresult) (switched : Bool) :
    Option AsyncHtodSpill × StagingShared :=
  if spill.completionRecorded = false ∨ spill.eventContext ≠ context then (some spill, e)
  else spill.answered e result switched

/-- `lupine_async_htod_publish_spill`. -/
def publish (result : CUresult) : AsyncHtodSpill × StagingShared :=
  if result = .success then
    ({ spill with ptr := noteCall (.mark true) spill.ptr, completionRecorded := true }, e)
  else { spill with ptr := noteCall (.mark false) spill.ptr }.giveUp e

/-- The loop body of `lupine_async_htod_retire_context` for spills. A spill no copy was submitted
from is not queried. -/
def retire (context : CUcontext) (result : CUresult) (switched : Bool) :
    Option AsyncHtodSpill × StagingShared :=
  if spill.allocationContext ≠ context ∧ spill.eventContext ≠ context then (some spill, e)
  else if spill.workQueued = false then (none, spill.discard e switched)
  else if spill.completionRecorded = false then (some spill, e)
  else spill.answered e (asyncHtodQuery spill.completion result) switched

/-- The loop body of `lupine_async_htod_forget_context` for spills. -/
def forget (context : CUcontext) : Option AsyncHtodSpill × StagingShared :=
  if spill.allocationContext ≠ context ∧ spill.eventContext ≠ context then (some spill, e)
  else (none, e.releaseStagingWindow spill.heldWindowBytes)

end AsyncHtodSpill

/-! ## The search for a slot

A pass considers the available slots of one kind, and the passes are made in the order of the
source. -/

/-- Whether a pass of `lupine_async_htod_acquire_slot` considers an available slot: first those with
a buffer of the context, then those without a buffer, then the others. -/
def AsyncHtodSlot.candidate (slot : AsyncHtodSlot) (context : CUcontext) (pass : ℕ) : Bool :=
  match pass with
  | 0 => slot.ptr.isSome && slot.allocationContext == context
  | 1 => slot.ptr.isNone
  | _ => slot.ptr.isSome

section Scan

variable (context : CUcontext) (slotBytes : ℕ)

/-- One pass over the slots: the index of the slot that could be prepared. -/
def scanPass (answers : ℕ → AsyncHtodSlot.PrepareAnswers) (pass : ℕ) :
    ℕ → List AsyncHtodSlot → StagingShared → Option ℕ × List AsyncHtodSlot × StagingShared
  | _, [], e => (none, [], e)
  | k, slot :: slots, e =>
    if slot.state = .available ∧ slot.candidate context pass then
      let prepared := slot.prepare e context slotBytes (answers k)
      if prepared.1 then
        (some k, prepared.2.1 :: slots, prepared.2.2.handOut prepared.2.1.ptr)
      else
        let rest := scanPass answers pass (k + 1) slots prepared.2.2
        (rest.1, prepared.2.1 :: rest.2.1, rest.2.2)
    else
      let rest := scanPass answers pass (k + 1) slots e
      (rest.1, slot :: rest.2.1, rest.2.2)

def scanPasses (answers : ℕ → ℕ → AsyncHtodSlot.PrepareAnswers) :
    List ℕ → List AsyncHtodSlot → StagingShared → Option ℕ × List AsyncHtodSlot × StagingShared
  | [], slots, e => (none, slots, e)
  | pass :: passes, slots, e =>
    let found := scanPass context slotBytes (answers pass) pass 0 slots e
    if found.1.isSome then found else scanPasses answers passes found.2.1 found.2.2

end Scan

/-! ## Operations

The stage of an operation says which slot or spill it has in hand and what has been done with it. -/

/-- How far an operation has come. It is choosing a slot; or a slot is acquired for a chunk, the
chunk is being read into it, it is read, or its copy was submitted and returned success or not; or
the same with a spill, which is `spilling` between two chunks and `spillFailed` when nothing more is
read into it. -/
inductive HtodStage where
  | choosing
  | acquired (i : ℕ)
  | reading (i : ℕ)
  | filled (i : ℕ)
  | copied (i : ℕ) (succeeded : Bool)
  | spilling (spill : AsyncHtodSpill)
  | spillReading (spill : AsyncHtodSpill)
  | spillFilled (spill : AsyncHtodSpill)
  | spillFailed (spill : AsyncHtodSpill)
  deriving DecidableEq, Repr

/-- A `lupine_staging_operation` that was acquired, in `lupine_server_copy_htod_async`. -/
structure HtodOperation where
  context : CUcontext
  stage : HtodStage
  deriving DecidableEq, Repr

/-- `lupine_staging_state`, with the operation that is active. The spill of the active operation,
which is the last one of the list, is part of its stage until it is published. -/
structure AsyncStaging where
  slots : List AsyncHtodSlot := List.replicate asyncHtodSlotCount {}
  spills : List AsyncHtodSpill := []
  shared : StagingShared := {}
  operation : Option HtodOperation := none
  deriving DecidableEq, Repr

namespace AsyncStaging

variable (st : AsyncStaging)

def onWindow (f : H2Window → H2Window) : AsyncStaging :=
  { st with shared := { st.shared with window := f st.shared.window } }

def goTo (context : CUcontext) (stage : HtodStage) : AsyncStaging :=
  { st with operation := some ⟨context, stage⟩ }

/-- The `lupine_staging_operation` is destroyed. -/
def finish : AsyncStaging := { st with operation := none }

/-- `lupine_async_htod_reclaim`. -/
def reclaim (context : CUcontext) (cuda : SweepAnswers) : AsyncStaging :=
  let slots := rewriteAll (fun k slot e ↦ slot.reclaim e context (cuda.slotQuery k)) 0
    st.slots st.shared
  let spills := sweep
    (fun k spill e ↦ spill.reclaim e context (cuda.spillQuery k) (cuda.spillSwitched k)) 0
    st.spills slots.2
  { st with slots := slots.1, spills := spills.1, shared := spills.2 }

/-- `lupine_async_htod_retire_context`. -/
def retireContext (context : CUcontext) (cuda : SweepAnswers) : AsyncStaging :=
  if context = 0 then st
  else
    let slots := rewriteAll
      (fun k slot e ↦ slot.retire e context (cuda.slotQuery k) (cuda.slotSwitched k)) 0
      st.slots st.shared
    let spills := sweep
      (fun k spill e ↦ spill.retire e context (cuda.spillQuery k) (cuda.spillSwitched k)) 0
      st.spills slots.2
    { st with slots := slots.1, spills := spills.1, shared := spills.2 }

/-- `lupine_async_htod_forget_context`. -/
def forgetContext (context : CUcontext) : AsyncStaging :=
  let slots := rewriteAll (fun _ slot e ↦ slot.forget e context) 0 st.slots st.shared
  let spills := sweep (fun _ spill e ↦ spill.forget e context) 0 st.spills slots.2
  { st with slots := slots.1, spills := spills.1, shared := spills.2 }

/-- One round of the loop of `lupine_async_htod_acquire_slot`. -/
def acquireSlot (context : CUcontext) (cuda : SweepAnswers)
    (answers : ℕ → ℕ → AsyncHtodSlot.PrepareAnswers) : Option ℕ × AsyncStaging :=
  let swept := st.reclaim context cuda
  let found := scanPasses context asyncHtodSlotBytes answers [0, 1, 2] swept.slots swept.shared
  (found.1, { swept with slots := found.2.1, shared := found.2.2 })

def onSlot (i : ℕ) (f : AsyncHtodSlot → StagingShared → AsyncHtodSlot × StagingShared) :
    AsyncStaging :=
  match st.slots[i]? with
  | some slot =>
    { st with slots := st.slots.set i (f slot st.shared).1, shared := (f slot st.shared).2 }
  | none => st

end AsyncStaging

/-! ## Runs

Steps of the operation and sweeps take turns; the results of the calls come with the step. -/

/-- What can happen next. Only the operation, when there is one, works on the slots and spills; a
context is retired or forgotten between two operations. The read of a chunk and the results of the
calls to the driver are given with the step. -/
inductive StagingStep where
  | begin (context : CUcontext)
  | acquire (cuda : SweepAnswers) (answers : ℕ → ℕ → AsyncHtodSlot.PrepareAnswers)
  | holdBegin
  | holdEnd (succeeded switched : Bool)
  | copy (result : CUresult)
  | publish (result : CUresult)
  | beginSpill (room allocated created switched : Bool)
  | finish
  | retire (context : CUcontext) (cuda : SweepAnswers)
  | forget (context : CUcontext)
  | data (len : ℕ)
  | readStaged (size : ℕ)
  | beginNetRead (capacity : ℕ)
  | endNetRead

namespace AsyncStaging

variable (st : AsyncStaging)

/-- `rpc_http2_window_hold_begin` in `lupine_read_staged_payload`. -/
def holdBegin : Option AsyncStaging :=
  match st.operation with
  | some ⟨context, .acquired i⟩ => some ((st.onWindow (·.holdBegin)).goTo context (.reading i))
  | some ⟨context, .spilling spill⟩ =>
    some ((st.onWindow (·.holdBegin)).goTo context (.spillReading spill))
  | _ => none

/-- The rest of `lupine_read_staged_payload`, and what is done when the payload was not read: the
slot is left as it is, and a spill is discarded unless a copy was submitted from it. -/
def holdEnd (succeeded switched : Bool) : Option AsyncStaging :=
  let held := st.shared.window.windowHoldBytes
  let ended := st.onWindow fun window ↦ window.holdEnd.2
  match st.operation with
  | some ⟨context, .reading i⟩ =>
    let filled := ended.onSlot i fun slot e ↦
      ({ slot with heldWindowBytes := slot.heldWindowBytes + held }, e)
    some (if succeeded then filled.goTo context (.filled i) else filled.finish)
  | some ⟨context, .spillReading spill⟩ =>
    let filled := { spill with heldWindowBytes := spill.heldWindowBytes + held }
    if succeeded then some (ended.goTo context (.spillFilled filled))
    -- copies from the earlier chunks may run, so the spill is published all the same
    else if filled.workQueued then some (ended.goTo context (.spillFailed filled))
    else some { ended with shared := filled.discard ended.shared switched }.finish
  | _ => none

/-- `cuMemcpyHtoDAsync_v2`. A failure does not prove that nothing was submitted. -/
def copy (result : CUresult) : Option AsyncStaging :=
  match st.operation with
  | some ⟨context, .filled i⟩ =>
    some ((st.onSlot i fun slot e ↦ ({ slot with ptr := noteCall .submit slot.ptr }, e)).goTo
      context (.copied i (result = .success)))
  | some ⟨context, .spillFilled spill⟩ =>
    let queued := { spill with ptr := noteCall .submit spill.ptr, workQueued := true }
    some (st.goTo context (if result = .success then .spilling queued else .spillFailed queued))
  | _ => none

/-- The spill of the operation is published, which happens only behind a copy from it. -/
def publishSpill (spill : AsyncHtodSpill) (result : CUresult) : Option AsyncStaging :=
  if spill.workQueued then
    some { st with
      spills := st.spills ++ [(spill.publish st.shared result).1]
      shared := (spill.publish st.shared result).2 }.finish
  else none

/-- The slot or the spill is published. The operation goes on when a chunk was copied and its event
recorded. -/
def publish (result : CUresult) : Option AsyncStaging :=
  match st.operation with
  | some ⟨context, .copied i succeeded⟩ =>
    let published := st.onSlot i fun slot e ↦ slot.publish e result
    some (if succeeded ∧ result = .success then published.goTo context .choosing
      else published.finish)
  | some ⟨_, .spilling spill⟩ => st.publishSpill spill result
  | some ⟨_, .spillFailed spill⟩ => st.publishSpill spill result
  | _ => none

/-- The start of `lupine_async_htod_enqueue_spill`; it may lack room, memory or an event. -/
def beginSpill (room allocated created switched : Bool) : Option AsyncStaging :=
  match st.operation with
  | some ⟨context, .choosing⟩ =>
    let spill : AsyncHtodSpill :=
      { ptr := if allocated then some [] else none, allocationContext := context,
        eventContext := context, completion := allocated && created }
    -- what is left of the payload is drained
    if room = false then some st.finish
    else if allocated && created then
      some ({ st with shared := st.shared.handOut spill.ptr }.goTo context (.spilling spill))
    else some { st with shared := spill.discard st.shared switched }.finish
  | _ => none

end AsyncStaging

/-- One step; `none` when it is not possible. -/
def stagingStep (st : AsyncStaging) : StagingStep → Option AsyncStaging
  | .begin context =>
    if st.operation = none ∧ context ≠ 0 then some (st.goTo context .choosing) else none
  | .acquire cuda answers =>
    match st.operation with
    | some ⟨context, .choosing⟩ =>
      let found := st.acquireSlot context cuda answers
      some (match found.1 with
        | some i => found.2.goTo context (.acquired i)
        | none => found.2)
    | _ => none
  | .holdBegin => st.holdBegin
  | .holdEnd succeeded switched => st.holdEnd succeeded switched
  | .copy result => st.copy result
  | .publish result => st.publish result
  | .beginSpill room allocated created switched => st.beginSpill room allocated created switched
  | .finish =>
    match st.operation with
    | some ⟨_, .choosing⟩ => some st.finish
    | _ => none
  | .retire context cuda =>
    if st.operation = none then some (st.retireContext context cuda) else none
  | .forget context => if st.operation = none then some (st.forgetContext context) else none
  | .data len => some (st.onWindow fun window ↦ window.onDataChunkRecv len)
  | .readStaged size => some (st.onWindow fun window ↦ window.readStaged size)
  | .beginNetRead capacity =>
    if st.shared.window.readRemaining = 0 then
      some (st.onWindow fun window ↦ window.beginNetRead capacity)
    else none
  | .endNetRead => some (st.onWindow fun window ↦ window.endNetRead)

/-- The staging of a connection, with every result the driver can return. -/
def stagingMachine : Machine AsyncStaging StagingStep where
  step := stagingStep

/-! ## What a step can do

The lemmas give every outcome of a step with its state, so that an invariant is proved case by case
without the definitions. -/

section Cases

variable {st st' : AsyncStaging}

namespace AsyncStaging

theorem holdBegin_cases (hstep : st.holdBegin = some st') :
    (∃ context i, st.operation = some ⟨context, .acquired i⟩ ∧
      st' = (st.onWindow (·.holdBegin)).goTo context (.reading i)) ∨
    ∃ context spill, st.operation = some ⟨context, .spilling spill⟩ ∧
      st' = (st.onWindow (·.holdBegin)).goTo context (.spillReading spill) := by
  rw [holdBegin] at hstep
  split at hstep
  next context i hop => exact Or.inl ⟨context, i, hop, (Option.some.inj hstep).symm⟩
  next context spill hop => exact Or.inr ⟨context, spill, hop, (Option.some.inj hstep).symm⟩
  next => exact nomatch hstep

/-- A spill that copies were submitted from is published in any case; another is discarded when
its payload was not read. -/
theorem holdEnd_cases {succeeded switched : Bool}
    (hstep : st.holdEnd succeeded switched = some st') :
    (∃ context i, st.operation = some ⟨context, .reading i⟩ ∧
      st' =
        let filled := (st.onWindow (·.holdEnd.2)).onSlot i fun slot e ↦
          ({ slot with heldWindowBytes :=
            slot.heldWindowBytes + st.shared.window.windowHoldBytes }, e)
        if succeeded then filled.goTo context (.filled i) else filled.finish) ∨
    ∃ context spill filled, st.operation = some ⟨context, .spillReading spill⟩ ∧
      filled = { spill with
        heldWindowBytes := spill.heldWindowBytes + st.shared.window.windowHoldBytes } ∧
      ((∃ stage, (succeeded = true ∧ stage = .spillFilled filled ∨
            succeeded = false ∧ filled.workQueued = true ∧ stage = .spillFailed filled) ∧
          st' = (st.onWindow (·.holdEnd.2)).goTo context stage) ∨
        succeeded = false ∧ filled.workQueued = false ∧
          st' = { st.onWindow (·.holdEnd.2) with
            shared := filled.discard (st.onWindow (·.holdEnd.2)).shared switched }.finish) := by
  rw [holdEnd] at hstep
  split at hstep
  next context i hop => exact Or.inl ⟨context, i, hop, (Option.some.inj hstep).symm⟩
  next context spill hop =>
    refine Or.inr ⟨context, spill, _, hop, rfl, ?_⟩
    simp only at hstep
    split_ifs at hstep with hok hqueued
    · exact Or.inl ⟨_, Or.inl ⟨hok, rfl⟩, (Option.some.inj hstep).symm⟩
    · exact Or.inl ⟨_, Or.inr ⟨eq_false_of_ne_true hok, hqueued, rfl⟩,
        (Option.some.inj hstep).symm⟩
    · exact Or.inr ⟨eq_false_of_ne_true hok, eq_false_of_ne_true hqueued,
        (Option.some.inj hstep).symm⟩
  next => exact nomatch hstep

theorem copy_cases {result : CUresult} (hstep : st.copy result = some st') :
    (∃ context i, st.operation = some ⟨context, .filled i⟩ ∧
      st' = (st.onSlot i fun slot e ↦ ({ slot with ptr := noteCall .submit slot.ptr }, e)).goTo
        context (.copied i (result = .success))) ∨
    ∃ context spill queued stage, st.operation = some ⟨context, .spillFilled spill⟩ ∧
      queued = { spill with ptr := noteCall .submit spill.ptr, workQueued := true } ∧
      (result = .success ∧ stage = .spilling queued ∨
        result ≠ .success ∧ stage = .spillFailed queued) ∧
      st' = st.goTo context stage := by
  rw [copy] at hstep
  split at hstep
  next context i hop => exact Or.inl ⟨context, i, hop, (Option.some.inj hstep).symm⟩
  next context spill hop =>
    refine Or.inr ⟨context, spill, _, _, hop, rfl, ?_, (Option.some.inj hstep).symm⟩
    split_ifs with hresult
    · exact Or.inl ⟨hresult, rfl⟩
    · exact Or.inr ⟨hresult, rfl⟩
  next => exact nomatch hstep

theorem publish_cases {result : CUresult} (hstep : st.publish result = some st') :
    (∃ context i succeeded, st.operation = some ⟨context, .copied i succeeded⟩ ∧
      st' =
        let published := st.onSlot i fun slot e ↦ slot.publish e result
        if succeeded ∧ result = .success then published.goTo context .choosing
        else published.finish) ∨
    ∃ context stage spill, st.operation = some ⟨context, stage⟩ ∧
      (stage = .spilling spill ∨ stage = .spillFailed spill) ∧ spill.workQueued = true ∧
      st' = { st with
        spills := st.spills ++ [(spill.publish st.shared result).1]
        shared := (spill.publish st.shared result).2 }.finish := by
  rw [publish] at hstep
  split at hstep
  next context i succeeded hop =>
    exact Or.inl ⟨context, i, succeeded, hop, (Option.some.inj hstep).symm⟩
  next context spill hop =>
    obtain ⟨hqueued, rfl⟩ := Option.ite_some_none_eq_some.mp hstep
    exact Or.inr ⟨context, _, spill, hop, Or.inl rfl, hqueued, rfl⟩
  next context spill hop =>
    obtain ⟨hqueued, rfl⟩ := Option.ite_some_none_eq_some.mp hstep
    exact Or.inr ⟨context, _, spill, hop, Or.inr rfl, hqueued, rfl⟩
  next => exact nomatch hstep

theorem beginSpill_cases {room allocated created switched : Bool}
    (hstep : st.beginSpill room allocated created switched = some st') :
    ∃ (context : CUcontext) (ptr : Option BufferHistory) (spill : AsyncHtodSpill),
      st.operation = some ⟨context, .choosing⟩ ∧ ptr = (if allocated then some [] else none) ∧
      spill = { ptr := ptr, allocationContext := context, eventContext := context,
                completion := allocated && created } ∧
      (room = false ∧ st' = st.finish ∨
        room = true ∧ spill.completion = true ∧
          st' = { st with shared := st.shared.handOut ptr }.goTo context (.spilling spill) ∨
        room = true ∧ spill.completion = false ∧
          st' = { st with shared := spill.discard st.shared switched }.finish) := by
  rw [beginSpill] at hstep
  split at hstep
  next context hop =>
    refine ⟨context, _, _, hop, rfl, rfl, ?_⟩
    generalize (if allocated then some [] else none : Option BufferHistory) = ptr at hstep ⊢
    simp only at hstep
    split_ifs at hstep with hroom hcreated
    · exact Or.inl ⟨hroom, (Option.some.inj hstep).symm⟩
    · exact Or.inr (Or.inl ⟨eq_true_of_ne_false hroom, hcreated, (Option.some.inj hstep).symm⟩)
    · exact Or.inr (Or.inr ⟨eq_true_of_ne_false hroom, eq_false_of_ne_true hcreated,
        (Option.some.inj hstep).symm⟩)
  next => exact nomatch hstep

end AsyncStaging

theorem stagingStep_acquire_cases {cuda : SweepAnswers}
    {answers : ℕ → ℕ → AsyncHtodSlot.PrepareAnswers}
    (hstep : stagingStep st (.acquire cuda answers) = some st') :
    ∃ context, st.operation = some ⟨context, .choosing⟩ ∧
      ((∃ i, (st.acquireSlot context cuda answers).1 = some i ∧
          st' = (st.acquireSlot context cuda answers).2.goTo context (.acquired i)) ∨
        (st.acquireSlot context cuda answers).1 = none ∧
          st' = (st.acquireSlot context cuda answers).2) := by
  rw [stagingStep] at hstep
  split at hstep
  next context hop =>
    obtain rfl := Option.some.inj hstep
    refine ⟨context, hop, ?_⟩
    split
    next i hfound => exact Or.inl ⟨i, hfound, rfl⟩
    next hnone => exact Or.inr ⟨hnone, rfl⟩
  next => exact nomatch hstep

theorem stagingStep_finish_cases (hstep : stagingStep st .finish = some st') :
    ∃ context, st.operation = some ⟨context, .choosing⟩ ∧ st' = st.finish := by
  rw [stagingStep] at hstep
  split at hstep
  next context hop => exact ⟨context, hop, (Option.some.inj hstep).symm⟩
  next => exact nomatch hstep

end Cases

end Lupine
