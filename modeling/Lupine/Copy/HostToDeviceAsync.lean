import Lupine.Copy.AsyncStaging
import Lupine.Copy.HostToDevice

/-!
# Asynchronous host-to-device copies on the server

`handle_manual_cuMemcpyHtoDAsync_v2` takes a payload off the connection and copies it to the device
chunk by chunk, without waiting for a copy. A chunk goes through a slot of the ring; when none comes
free before the poll budget is used up, the rest of the payload goes through one spill buffer. On a
stream that is being captured the payload is read as a whole, and one copy is recorded behind it.

Every call may fail, at any chunk, and what is left of the payload is then drained. The request has
no response: its result is the one that `lupine_server_copy_htod_async` returns, which the handler
drops; what it answers for is the next request on the connection.

The outcomes of the calls are a parameter, as in the synchronous handler; a call that is made for
several chunks is told apart by the offset of the chunk. The search for a slot is one such call: it
gives a slot, which is one of `LUPINE_ASYNC_HTOD_SLOT_BYTES` in every state that the staging can be
in, or the budget is used up.

## How the paths meet

A payload is taken from the front. Whatever path takes over does so at an offset that is a multiple
of the block size, on the encoding of what is left, and it leaves the connection behind the payload.
`Takes` is the statement about one such path: a front of its part is copied in order, all of it when
the result is `CUDA_SUCCESS`. Two paths in a row take what their parts are of, so the slots, the
spill and the drain are put together in one lemma each.
-/

namespace Lupine

open Foundation

/-! ## The size of a slot

The slots of a connection are all allocated for the same size, so a chunk that goes through a slot
is one of that size or the last.

Calls about a buffer do not change its size and dropping it leaves none, so the size is that which
the preparation of a slot asks for. A sweep over the slots keeps the size of each. -/

namespace AsyncHtodSlot

/-- What a slot has for a buffer is as large as a chunk. -/
def Sized (slot : AsyncHtodSlot) : Prop := slot.ptr.isSome → slot.size = asyncHtodSlotBytes

variable {slot slot' : AsyncHtodSlot} {e : StagingShared} {context : CUcontext}

theorem sized_of_none (h : slot.ptr = none) : slot.Sized := by
  intro hsome
  rw [h] at hsome
  exact nomatch hsome

theorem Sized.of_noteCall {call : BufferCall} (h : slot.Sized)
    (hptr : slot'.ptr = slot.ptr ∨ slot'.ptr = noteCall call slot.ptr)
    (hsize : slot'.size = slot.size) : slot'.Sized := by
  intro hsome
  refine hsize.trans (h ?_)
  rcases hptr with hptr | hptr
  · rwa [hptr] at hsome
  · rwa [hptr, noteCall, Option.isSome_map] at hsome

theorem Sized.asked (h : slot.Sized) (result : CUresult) : (slot.asked result).Sized :=
  h.of_noteCall (Or.inr rfl) rfl

theorem Sized.reopen (h : slot.Sized) (result : CUresult) : (slot.reopen result).Sized :=
  h.of_noteCall (Or.inr rfl) rfl

theorem Sized.reclaim (h : slot.Sized) (result : CUresult) :
    (slot.reclaim e context result).1.Sized := by
  rw [AsyncHtodSlot.reclaim]
  split_ifs
  · exact h
  · exact h.asked result
  · exact h.asked result
  · exact h.asked result

theorem Sized.resetAvailable (h : slot.Sized) (switched : Bool) :
    (slot.resetAvailable e switched).1.Sized := by
  rw [AsyncHtodSlot.resetAvailable]
  split_ifs
  · exact h
  · exact sized_of_none rfl

theorem Sized.destroyEvent (h : slot.Sized) : slot.destroyEvent.Sized :=
  h.of_noteCall (Or.inr rfl) rfl

theorem Sized.drop (h : slot.Sized) (switched : Bool) : (slot.drop e context switched).1.Sized := by
  rw [AsyncHtodSlot.drop]
  dsimp only
  split_ifs
  · exact sized_of_none rfl
  · exact h.destroyEvent

theorem Sized.retire (h : slot.Sized) (result : CUresult) (switched : Bool) :
    (slot.retire e context result switched).1.Sized := by
  rw [AsyncHtodSlot.retire]
  split_ifs
  · exact h
  split
  next => exact h.drop switched
  next => exact h
  next =>
    dsimp only
    split_ifs
    · exact h.asked _
    · exact h.asked _
    · exact Sized.drop (h.reopen _) switched

theorem Sized.forget (h : slot.Sized) : (slot.forget e context).1.Sized := by
  rw [AsyncHtodSlot.forget]
  split_ifs
  · exact sized_of_none rfl
  · exact h

theorem Sized.publish (h : slot.Sized) (result : CUresult) : (slot.publish e result).1.Sized := by
  rw [AsyncHtodSlot.publish]
  split_ifs
  · exact h.of_noteCall (Or.inr rfl) rfl
  · exact h.of_noteCall (Or.inr rfl) rfl

theorem Sized.prepare (h : slot.Sized) (e : StagingShared) (context : CUcontext)
    (answers : PrepareAnswers) :
    (slot.prepare e context asyncHtodSlotBytes answers).2.1.Sized ∧
      ((slot.prepare e context asyncHtodSlotBytes answers).1 = true →
        (slot.prepare e context asyncHtodSlotBytes answers).2.1.ptr.isSome) := by
  have hfit : (slot.fit e context asyncHtodSlotBytes answers.switched).1.Sized := by
    rw [fit]
    split_ifs
    · exact h.resetAvailable _
    · exact h
  have hallocate (fitted : AsyncHtodSlot) (hfitted : fitted.Sized) :
      (fitted.allocate context asyncHtodSlotBytes answers.allocated).2.Sized ∧
        ((fitted.allocate context asyncHtodSlotBytes answers.allocated).1 = true →
          (fitted.allocate context asyncHtodSlotBytes answers.allocated).2.ptr.isSome) := by
    rw [allocate]
    split_ifs with hsome
    · exact ⟨hfitted, fun _ ↦ hsome⟩
    · exact ⟨fun _ ↦ rfl, fun _ ↦ rfl⟩
    · exact ⟨hfitted, fun hfailed ↦ nomatch hfailed⟩
  have hcreate (allocated : AsyncHtodSlot) (hallocated : allocated.Sized) :
      (allocated.createEvent context answers.created).2.Sized ∧
        (allocated.createEvent context answers.created).2.ptr.isSome = allocated.ptr.isSome := by
    have hkept : (noteCall .unmark allocated.ptr).isSome = allocated.ptr.isSome := Option.isSome_map
    rw [createEvent]
    split_ifs <;> first | exact ⟨hallocated.destroyEvent, hkept⟩ | exact ⟨hallocated, rfl⟩
  rw [AsyncHtodSlot.prepare]
  dsimp only
  split_ifs with hstate hallocated
  · exact ⟨h, fun hfailed ↦ nomatch hfailed⟩
  · obtain ⟨hsized, hptr⟩ := hallocate _ hfit
    obtain ⟨hready, hkept⟩ := hcreate _ hsized
    exact ⟨hready, fun _ ↦ hkept.trans (hptr hallocated)⟩
  · exact ⟨(hallocate _ hfit).1, fun hfailed ↦ nomatch hfailed⟩

end AsyncHtodSlot

section Scan

variable (context : CUcontext) {slots : List AsyncHtodSlot} (e : StagingShared)

theorem scanPass_sized (answers : ℕ → AsyncHtodSlot.PrepareAnswers) (pass k : ℕ)
    (hslots : ∀ slot ∈ slots, slot.Sized) :
    (∀ slot ∈ (scanPass context asyncHtodSlotBytes answers pass k slots e).2.1, slot.Sized) ∧
      ∀ n, (scanPass context asyncHtodSlotBytes answers pass k slots e).1 = some n →
        ∃ j slot, n = k + j ∧ slot.ptr.isSome ∧
          (scanPass context asyncHtodSlotBytes answers pass k slots e).2.1[j]? = some slot := by
  induction slots generalizing k e with
  | nil => exact ⟨hslots, fun n hn ↦ nomatch hn⟩
  | cons slot slots ih =>
    obtain ⟨hslot, hrest⟩ := List.forall_mem_cons.mp hslots
    obtain ⟨hprepared, hready⟩ := hslot.prepare e context (answers k)
    rw [scanPass]
    dsimp only
    split_ifs with hcandidate hfound
    · refine ⟨List.forall_mem_cons.mpr ⟨hprepared, hrest⟩, fun n hn ↦ ?_⟩
      obtain rfl := Option.some.inj hn
      exact ⟨0, _, rfl, hready hfound, rfl⟩
    · obtain ⟨hleft, hindex⟩ := ih _ (k + 1) hrest
      refine ⟨List.forall_mem_cons.mpr ⟨hprepared, hleft⟩, fun n hn ↦ ?_⟩
      obtain ⟨j, found, rfl, hptr, hj⟩ := hindex n hn
      exact ⟨j + 1, found, by omega, hptr, hj⟩
    · obtain ⟨hleft, hindex⟩ := ih _ (k + 1) hrest
      refine ⟨List.forall_mem_cons.mpr ⟨hslot, hleft⟩, fun n hn ↦ ?_⟩
      obtain ⟨j, found, rfl, hptr, hj⟩ := hindex n hn
      exact ⟨j + 1, found, by omega, hptr, hj⟩

theorem scanPasses_sized (rounds : ℕ → ℕ → AsyncHtodSlot.PrepareAnswers) (passes : List ℕ)
    (hslots : ∀ slot ∈ slots, slot.Sized) :
    (∀ slot ∈ (scanPasses context asyncHtodSlotBytes rounds passes slots e).2.1, slot.Sized) ∧
      ∀ n, (scanPasses context asyncHtodSlotBytes rounds passes slots e).1 = some n →
        ∃ slot, slot.ptr.isSome ∧
          (scanPasses context asyncHtodSlotBytes rounds passes slots e).2.1[n]? = some slot := by
  induction passes generalizing slots e with
  | nil => exact ⟨hslots, fun n hn ↦ nomatch hn⟩
  | cons pass passes ih =>
    obtain ⟨hleft, hindex⟩ := scanPass_sized context e (rounds pass) pass 0 hslots
    rw [scanPasses]
    split_ifs
    · refine ⟨hleft, fun n hn ↦ ?_⟩
      obtain ⟨j, slot, rfl, hptr, hj⟩ := hindex n hn
      exact ⟨slot, hptr, by rwa [Nat.zero_add]⟩
    · exact ih _ hleft

end Scan

namespace AsyncStaging

/-- All slots are of that size. -/
def SlotsSized (st : AsyncStaging) : Prop := ∀ slot ∈ st.slots, slot.Sized

variable {st st' : AsyncStaging}

theorem SlotsSized.rewriteAll (h : st.SlotsSized)
    {g : ℕ → AsyncHtodSlot → StagingShared → AsyncHtodSlot × StagingShared}
    (hg : ∀ i slot e, slot.Sized → (g i slot e).1.Sized) :
    ∀ slot ∈ (Foundation.rewriteAll g 0 st.slots st.shared).1, slot.Sized :=
  (rewriteAll_invariant (I := fun _ ↦ True)
    (fun i slot hslot e _ ↦ ⟨hg i slot e (h slot hslot), trivial⟩) trivial).1

theorem SlotsSized.reclaim (h : st.SlotsSized) (context : CUcontext) (cuda : SweepAnswers) :
    (st.reclaim context cuda).SlotsSized :=
  h.rewriteAll fun _ _ _ hslot ↦ hslot.reclaim _

theorem SlotsSized.acquireSlot (h : st.SlotsSized) (context : CUcontext) (cuda : SweepAnswers)
    (answers : ℕ → ℕ → AsyncHtodSlot.PrepareAnswers) :
    (st.acquireSlot context cuda answers).2.SlotsSized ∧
      ∀ i, (st.acquireSlot context cuda answers).1 = some i →
        ∃ slot, (st.acquireSlot context cuda answers).2.slots[i]? = some slot ∧
          slot.size = asyncHtodSlotBytes := by
  obtain ⟨hslots, hindex⟩ := scanPasses_sized context (st.reclaim context cuda).shared answers
    [0, 1, 2] (h.reclaim context cuda)
  refine ⟨hslots, fun i hi ↦ ?_⟩
  obtain ⟨slot, hptr, hslot⟩ := hindex i hi
  exact ⟨slot, hslot, hslots slot (List.mem_of_getElem? hslot) hptr⟩

theorem SlotsSized.onSlot (h : st.SlotsSized) (i : ℕ)
    {f : AsyncHtodSlot → StagingShared → AsyncHtodSlot × StagingShared}
    (hf : ∀ slot e, slot.Sized → (f slot e).1.Sized) : (st.onSlot i f).SlotsSized := by
  rw [AsyncStaging.onSlot]
  split
  next slot hslot =>
    intro other hother
    rcases List.mem_or_eq_of_mem_set hother with hother | rfl
    · exact h other hother
    · exact hf slot _ (h slot (List.mem_of_getElem? hslot))
  next => exact h

theorem SlotsSized.step (h : st.SlotsSized) {step : StagingStep}
    (hstep : stagingStep st step = some st') : st'.SlotsSized := by
  cases step with
  | begin context =>
    obtain ⟨-, rfl⟩ := Option.ite_some_none_eq_some.mp hstep
    exact h
  | acquire cuda answers =>
    -- a slot that is acquired keeps its size, whether it is new or was retired
    obtain ⟨context, -, ⟨i, -, rfl⟩ | ⟨-, rfl⟩⟩ := stagingStep_acquire_cases hstep
    · exact (h.acquireSlot context cuda answers).1
    · exact (h.acquireSlot context cuda answers).1
  | holdBegin =>
    obtain ⟨context, i, -, rfl⟩ | ⟨context, spill, -, rfl⟩ := holdBegin_cases hstep
    · exact h
    · exact h
  | holdEnd succeeded switched =>
    obtain ⟨context, i, -, rfl⟩ | ⟨context, spill, filled, -, -, hstage⟩ := holdEnd_cases hstep
    · have hended : (st.onWindow fun window ↦ window.holdEnd.2).SlotsSized := h
      have hfilled := hended.onSlot i (f := fun slot e ↦ ({ slot with
        heldWindowBytes := slot.heldWindowBytes + st.shared.window.windowHoldBytes }, e))
        fun slot e hslot ↦ hslot
      dsimp only
      split_ifs
      · exact hfilled
      · exact hfilled
    · rcases hstage with ⟨stage, -, rfl⟩ | ⟨-, -, rfl⟩
      · exact h
      · exact h
  | copy result =>
    obtain ⟨context, i, -, rfl⟩ | ⟨context, spill, queued, stage, -, -, -, rfl⟩ := copy_cases hstep
    · exact h.onSlot i fun slot e hslot ↦ hslot.of_noteCall (Or.inr rfl) rfl
    · exact h
  | publish result =>
    obtain ⟨context, i, succeeded, -, rfl⟩ | ⟨context, stage, spill, -, -, -, rfl⟩ :=
      publish_cases hstep
    · have hpublished := h.onSlot i (f := fun slot e ↦ slot.publish e result)
        fun slot e hslot ↦ hslot.publish result
      dsimp only
      split_ifs
      · exact hpublished
      · exact hpublished
    · exact h
  | beginSpill room allocated created switched =>
    obtain ⟨context, ptr, spill, -, -, -, ⟨-, rfl⟩ | ⟨-, -, rfl⟩ | ⟨-, -, rfl⟩⟩ :=
      beginSpill_cases hstep
    · exact h
    · exact h
    · exact h
  | finish =>
    obtain ⟨context, -, rfl⟩ := stagingStep_finish_cases hstep
    exact h
  | retire context cuda =>
    obtain ⟨-, rfl⟩ := Option.ite_some_none_eq_some.mp hstep
    rw [retireContext]
    split_ifs
    · exact h
    · exact h.rewriteAll fun _ _ _ hslot ↦ hslot.retire _ _
  | forget context =>
    obtain ⟨-, rfl⟩ := Option.ite_some_none_eq_some.mp hstep
    exact h.rewriteAll fun _ _ _ hslot ↦ hslot.forget
  | data len =>
    obtain rfl := Option.some.inj hstep
    exact h
  | readStaged size =>
    obtain rfl := Option.some.inj hstep
    exact h
  | beginNetRead capacity =>
    obtain ⟨-, rfl⟩ := Option.ite_some_none_eq_some.mp hstep
    exact h
  | endNetRead =>
    obtain rfl := Option.some.inj hstep
    exact h

end AsyncStaging

/-- **What a search gives.** In every state of the staging, a slot that is found has a buffer of
`LUPINE_ASYNC_HTOD_SLOT_BYTES`. -/
theorem acquireSlot_size {steps : List StagingStep} {st : AsyncStaging}
    (hrun : stagingMachine.run {} steps = some st) {context : CUcontext} {cuda : SweepAnswers}
    {answers : ℕ → ℕ → AsyncHtodSlot.PrepareAnswers} {i : ℕ}
    (hfound : (st.acquireSlot context cuda answers).1 = some i) :
    ∃ slot, (st.acquireSlot context cuda answers).2.slots[i]? = some slot ∧
      slot.size = asyncHtodSlotBytes := by
  have hinit : AsyncStaging.SlotsSized {} := by
    intro slot hslot
    rw [List.eq_of_mem_replicate hslot]
    exact AsyncHtodSlot.sized_of_none rfl
  have hsized : st.SlotsSized :=
    stagingMachine.run_invariant (fun _ _ _ h hstep ↦ h.step hstep) hinit hrun
  exact (hsized.acquireSlot context cuda answers).2 i hfound

/-! ## The handler

The loops are over the chunks that are left, and each returns what it has done with them: the
result, what is inbound behind them, and the copies it has issued. Windows has no ring, and the
loop over one buffer is the whole of the handler there. -/

structure AsyncHtodCalls where
  /-- `cuStreamIsCapturing`, with whether the stream is being captured. -/
  streamIsCapturing : CUresult × Bool
  /-- `lupine_alloc_capture_scratch`. -/
  allocCaptureScratch : HostPtr
  /-- The copy that is captured. -/
  memcpyCaptured : CUresult
  ctxGetCurrent : CUresult × CUcontext
  ctxGetDevice : CUresult
  /-- Whether `lupine_staging_operation` was acquired. -/
  operationAcquired : Bool
  /-- Whether `lupine_async_htod_acquire_slot` gives a slot. -/
  acquireSlot : ℕ → Bool
  memcpyHtoDAsync : ℕ → CUresult
  /-- `cuEventRecord` in `lupine_async_htod_publish_slot`. -/
  publishSlot : ℕ → CUresult
  /-- Whether `state.spills` can grow. -/
  emplaceSpill : Bool
  memHostAlloc : CUresult
  eventCreate : CUresult
  /-- `cuEventRecord` in `lupine_async_htod_publish_spill`. -/
  publishSpill : CUresult
  /-- The server is built for Windows, where there is no ring. -/
  windows : Bool
  memAllocHost : CUresult
  deferHostFree : CUresult

/-- What has been done with a payload: the result, what is inbound, and the copies that were issued,
each with its device address. -/
structure AsyncCopies where
  result : CUresult
  inbound : List UInt8
  copies : List (CUdeviceptr × List UInt8) := []
  deriving DecidableEq, Repr

namespace AsyncCopies

def prepend (copy : CUdeviceptr × List UInt8) (done : AsyncCopies) : AsyncCopies :=
  { done with copies := copy :: done.copies }

end AsyncCopies

section Handler

variable (calls : AsyncHtodCalls) (lz4 : Lz4) (framed : Bool)

/-- What is left of a payload is drained, and the result is the given one. -/
def drainAsync (result : CUresult) (inbound : List UInt8) (bytes : ℕ) : Option AsyncCopies :=
  (drainPayload lz4 framed inbound bytes).map fun rest ↦ { result, inbound := rest }

/-- The loop that copies chunk by chunk out of one buffer, of a spill or on Windows, for the part of
the payload that begins at `base`. It is entered with `CUDA_SUCCESS`. -/
def copyBuffered (destination : CUdeviceptr) (base bytes offset : ℕ) (inbound : List UInt8) :
    Option AsyncCopies :=
  if _h : offset < bytes then
    let chunk := min htodChunkBytes (bytes - offset)
    match unlessNegative (readPayloadPart lz4 framed inbound chunk) with
    | none => none
    | some r =>
      let copied := calls.memcpyHtoDAsync (base + offset)
      AsyncCopies.prepend (devAdd destination offset, r.data) <$>
        if copied ≠ .success then drainAsync lz4 framed copied r.rest (bytes - (offset + chunk))
        else
          copyBuffered destination base bytes (offset + min htodChunkBytes (bytes - offset)) r.rest
  else some { result := .success, inbound }
termination_by bytes - offset
decreasing_by
  have : 0 < htodChunkBytes := by decide
  omega

/-- `lupine_async_htod_enqueue_spill`, with `payload_consumed`; `none` is `connection_failed`. -/
def enqueueSpill (destination : CUdeviceptr) (base bytes : ℕ) (inbound : List UInt8) :
    Option (Bool × AsyncCopies) :=
  if !calls.emplaceSpill then some (false, { result := .errorOutOfMemory, inbound })
  else
    let result := if calls.memHostAlloc = .success then calls.eventCreate else calls.memHostAlloc
    if result ≠ .success then some (false, { result, inbound })
    else
      (copyBuffered calls lz4 framed destination base bytes 0 inbound).map fun done ↦
        -- the event is recorded in any case, and its result counts where the copies succeeded
        (true, { done with
          result := if done.result = .success then calls.publishSpill else done.result })

/-- The loop over the slots: how much of the payload is taken, and what has been done with it. -/
def copySlots (destination : CUdeviceptr) (bytes offset : ℕ) (inbound : List UInt8) :
    Option (ℕ × AsyncCopies) :=
  if _h : offset < bytes then
    if calls.acquireSlot offset then
      let chunk := min asyncHtodSlotBytes (bytes - offset)
      let next := offset + chunk
      match unlessNegative (readPayloadPart lz4 framed inbound chunk) with
      | none => none
      | some r =>
        let copied := calls.memcpyHtoDAsync offset
        let published := calls.publishSlot offset
        Prod.map id (AsyncCopies.prepend (devAdd destination offset, r.data)) <$>
          if copied ≠ .success then
            (drainAsync lz4 framed copied r.rest (bytes - next)).map (next, ·)
          else if published ≠ .success then
            (drainAsync lz4 framed published r.rest (bytes - next)).map (next, ·)
          else copySlots destination bytes (offset + min asyncHtodSlotBytes (bytes - offset)) r.rest
    else some (offset, { result := .success, inbound })
  else some (offset, { result := .success, inbound })
termination_by bytes - offset
decreasing_by
  have : 0 < asyncHtodSlotBytes := by decide
  omega

/-- The result that `lupine_server_copy_htod_async` holds before it turns to the payload. -/
def asyncContextResult (state : Bool) : CUresult :=
  if !state then .errorOutOfMemory
  else if calls.ctxGetCurrent.1 ≠ .success then calls.ctxGetCurrent.1
  else if calls.ctxGetCurrent.2 = 0 then .errorInvalidContext
  else if calls.ctxGetDevice ≠ .success then calls.ctxGetDevice
  else if !calls.operationAcquired then .errorInvalidContext
  else .success

/-- The end of `lupine_server_copy_htod_async`, behind the slots. -/
def copyBehindSlots (destination : CUdeviceptr) (bytes offset : ℕ) (done : AsyncCopies) :
    Option AsyncCopies :=
  if done.result = .success ∧ offset < bytes then
    let remaining := bytes - offset
    (enqueueSpill calls lz4 framed (devAdd destination offset) offset remaining
      done.inbound).bind fun (consumed, spilled) ↦
        let inbound :=
          if consumed then some spilled.inbound
          else drainPayload lz4 framed spilled.inbound remaining
        inbound.map fun inbound ↦
          { spilled with inbound, copies := done.copies ++ spilled.copies }
  else if done.result ≠ .success ∧ offset = 0 then
    (drainPayload lz4 framed done.inbound bytes).map fun inbound ↦ { done with inbound }
  else some done

/-- `lupine_server_copy_htod_async`, where `state` is whether there is a staging state for the
connection; `none` is `-1`. -/
def serverCopyHtodAsync (state : Bool) (destination : CUdeviceptr) (bytes : ℕ)
    (inbound : List UInt8) : Option AsyncCopies :=
  let result := asyncContextResult calls state
  let slots :=
    if result = .success then copySlots calls lz4 framed destination bytes 0 inbound
    else some (0, { result, inbound })
  slots.bind fun (offset, done) ↦ copyBehindSlots calls lz4 framed destination bytes offset done

/-- What the handler does in its place on Windows. -/
def copyHtodAsyncWindows (destination : CUdeviceptr) (bytes : ℕ) (inbound : List UInt8) :
    Option AsyncCopies :=
  if bytes ≠ 0 ∧ calls.memAllocHost ≠ .success then
    drainAsync lz4 framed calls.memAllocHost inbound bytes
  else
    (copyBuffered calls lz4 framed destination 0 bytes 0 inbound).map fun done ↦
      { done with
        result := if bytes ≠ 0 ∧ done.result = .success then calls.deferHostFree else done.result }

/-- The payload of a captured copy is read as a whole, with what is then in `capture_host`. -/
def readCaptured (captureHost : HostPtr) (bytes : ℕ) (inbound : List UInt8) :
    Option (AsyncCopies × List UInt8) :=
  if captureHost = 0 ∧ bytes ≠ 0 then
    (drainAsync lz4 framed .errorOutOfMemory inbound bytes).map (·, [])
  else if bytes ≠ 0 then
    (unlessNegative (readPayloadPart lz4 framed inbound bytes)).map fun r ↦
      ({ result := .errorInvalidValue, inbound := r.rest }, r.data)
  else some ({ result := .errorInvalidValue, inbound }, [])

/-- The middle of `handle_manual_cuMemcpyHtoDAsync_v2`, which takes the payload off the connection,
with the answer of `cuStreamIsCapturing`. -/
def takeAsyncPayload (state : Bool) (queried : CUresult) (capturing : Bool)
    (captureHost : HostPtr) (destination : CUdeviceptr) (bytes : ℕ) (inbound : List UInt8) :
    Option (AsyncCopies × List UInt8) :=
  if queried ≠ .success then (drainAsync lz4 framed queried inbound bytes).map (·, [])
  else if capturing then readCaptured lz4 framed captureHost bytes inbound
  else if calls.windows then
    (copyHtodAsyncWindows calls lz4 framed destination bytes inbound).map (·, [])
  else (serverCopyHtodAsync calls lz4 framed state destination bytes inbound).map (·, [])

/-- The captured copy, which is recorded behind `rpc_read_end`. -/
def captureCopy (queried : CUresult) (capturing : Bool) (destination : CUdeviceptr)
    (captured : List UInt8) (done : AsyncCopies) : AsyncCopies :=
  if queried = .success ∧ capturing = true ∧ done.result ≠ .errorOutOfMemory then
    { done with result := calls.memcpyCaptured, copies := [(destination, captured)] }
  else done

/-- `cuStreamIsCapturing`, which is asked of no other stream than a created one. -/
def captureStatus (stream : CUstream) : CUresult × Bool :=
  if stream ≠ 0 then calls.streamIsCapturing else (.success, false)

/-- `handle_manual_cuMemcpyHtoDAsync_v2`: the connection after a return of `0`, and what was done;
`none` is `-1`. -/
def handleManualCuMemcpyHtoDAsync_v2 (state : Bool) (conn : CopyConn) :
    Option (CopyConn × AsyncCopies) := do
  let r ← unlessNegative (rpcRead conn.inbound 8)
  let destination := leValue r.data
  let r ← unlessNegative (rpcRead r.rest 8)
  let bytes := leValue r.data
  let r ← unlessNegative (rpcRead r.rest 8)
  let stream := leValue r.data
  let r ← unlessNegative (rpcRead r.rest 8)
  let graphHostSource := leValue r.data
  let framed := payloadFramed conn.compressLz4 bytes
  let (queried, capturing) := captureStatus calls stream
  let captureHost := if graphHostSource = 0 then calls.allocCaptureScratch else graphHostSource
  let (done, captured) ←
    takeAsyncPayload calls lz4 framed state queried capturing captureHost destination bytes r.rest
  -- `rpc_read_end`
  if conn.readId < 0 then none
  else
    let done := captureCopy calls queried capturing destination captured done
    some ({ conn with inbound := done.inbound, readId := 0 }, done)

end Handler

/-! ## What the copies are of

The copies of a payload go to consecutive addresses. Without a copy the result is an error, and a
result may be replaced by an error but not by success. -/

/-- The copies go to consecutive addresses, from the offset on. -/
def Consecutive (destination : CUdeviceptr) : ℕ → List (CUdeviceptr × List UInt8) → Prop
  | _, [] => True
  | offset, copy :: copies =>
    copy.1 = devAdd destination offset ∧ Consecutive destination (offset + copy.2.length) copies

theorem consecutive_append {destination : CUdeviceptr} {offset : ℕ}
    {copies later : List (CUdeviceptr × List UInt8)} :
    Consecutive destination offset (copies ++ later) ↔
      Consecutive destination offset copies ∧
        Consecutive destination (offset + (copies.flatMap Prod.snd).length) later := by
  induction copies generalizing offset with
  | nil => simp [Consecutive]
  | cons copy copies ih =>
    rw [List.cons_append, Consecutive, Consecutive, ih, List.flatMap_cons, List.length_append,
      and_assoc, Nat.add_assoc]

theorem consecutive_devAdd {destination : CUdeviceptr} {base offset : ℕ}
    {copies : List (CUdeviceptr × List UInt8)} :
    Consecutive (devAdd destination base) offset copies ↔
      Consecutive destination (base + offset) copies := by
  induction copies generalizing offset with
  | nil => exact Iff.rfl
  | cons copy copies ih =>
    rw [Consecutive, Consecutive, ih, Nat.add_assoc]
    refine and_congr_left fun _ ↦ ?_
    rw [devAdd, devAdd, devAdd, Nat.mod_add_mod, Nat.add_assoc]

namespace AsyncCopies

def copied (done : AsyncCopies) : List UInt8 := done.copies.flatMap Prod.snd

/-- A payload has been taken, down to what follows it, and a front of it copied in order to the
addresses from the offset on: all of it where the result is `CUDA_SUCCESS`. -/
structure Takes (done : AsyncCopies) (destination : CUdeviceptr) (offset : ℕ)
    (payload rest : List UInt8) : Prop where
  inbound : done.inbound = rest
  consecutive : Consecutive destination offset done.copies
  front : done.copied <+: payload
  whole : done.result = .success → done.copied = payload

variable {done : AsyncCopies} {destination : CUdeviceptr} {offset : ℕ}
  {payload rest : List UInt8} {result : CUresult}

theorem takes_of_ne (hresult : result ≠ .success) :
    ({ result, inbound := rest } : AsyncCopies).Takes destination offset payload rest where
  inbound := rfl
  consecutive := trivial
  front := List.nil_prefix
  whole h := absurd h hresult

theorem takes_nil :
    ({ result, inbound := rest } : AsyncCopies).Takes destination offset [] rest where
  inbound := rfl
  consecutive := trivial
  front := List.prefix_rfl
  whole _ := rfl

theorem Takes.withResult (h : done.Takes destination offset payload rest)
    (hresult : result = .success → done.result = .success) :
    ({ done with result } : AsyncCopies).Takes destination offset payload rest where
  inbound := h.inbound
  consecutive := h.consecutive
  front := h.front
  whole hsuccess := h.whole (hresult hsuccess)

theorem Takes.append {part tail : List UInt8} {copies : List (CUdeviceptr × List UInt8)}
    (hcopies : Consecutive destination offset copies) (hpart : copies.flatMap Prod.snd = part)
    (h : done.Takes destination (offset + part.length) tail rest) :
    ({ done with copies := copies ++ done.copies } : AsyncCopies).Takes destination offset
      (part ++ tail) rest where
  inbound := h.inbound
  consecutive := consecutive_append.mpr ⟨hcopies, by rw [hpart]; exact h.consecutive⟩
  front := by
    rw [copied, List.flatMap_append, hpart]
    exact (List.prefix_append_right_inj part).mpr h.front
  whole hsuccess := by
    rw [copied, List.flatMap_append, hpart]
    exact congrArg (part ++ ·) (h.whole hsuccess)

theorem Takes.prepend {part tail : List UInt8}
    (h : done.Takes destination (offset + part.length) tail rest) :
    (done.prepend (devAdd destination offset, part)).Takes destination offset (part ++ tail)
      rest := by
  have hcopy : Consecutive destination offset [(devAdd destination offset, part)] := ⟨rfl, trivial⟩
  exact Takes.append hcopy (List.flatMap_singleton _ _) h

end AsyncCopies

/-! ## A payload that is there as a whole

Each path is started on the encoding of the part of the payload that is left, and ends behind it
whatever the calls return. The chunks are multiples of the block size but for the last.

The slots take the front that they are given, or an error occurs at one of them and the rest is
drained; a spill consumes all of what is left, or nothing of it and says so. -/

section Paths

variable (calls : AsyncHtodCalls) (lz4 : Lz4) (framed : Bool) (destination : CUdeviceptr)

theorem drainAsync_encode (result : CUresult) (tail rest : List UInt8) :
    drainAsync lz4 framed result (encode lz4 framed tail ++ rest) tail.length =
      some { result, inbound := rest } := by
  rw [drainAsync, drainPayload_encode]
  rfl

theorem read_chunk (size : ℕ) (hsize : size < 2 ^ 31) (hdvd : compressBlockBytes ∣ size)
    (tail rest : List UInt8) :
    ∃ part left, part.length = min size tail.length ∧
      left.length = tail.length - min size tail.length ∧ tail = part ++ left ∧
      unlessNegative (readPayloadPart lz4 framed (encode lz4 framed tail ++ rest)
          (min size tail.length)) =
        some ⟨(min size tail.length : ℕ), part, encode lz4 framed left ++ rest⟩ := by
  have hblock : compressBlockBytes ∣ min size tail.length ∨
      min size tail.length = tail.length := by
    rcases Nat.le_total size tail.length with hle | hle
    · rw [Nat.min_eq_left hle]
      exact Or.inl hdvd
    · exact Or.inr (Nat.min_eq_right hle)
  refine ⟨_, _, ?_, ?_, (List.take_append_drop (min size tail.length) tail).symm, ?_⟩
  · rw [List.length_take]
    omega
  · exact List.length_drop
  · exact unlessNegative_readPayloadPart lz4 framed rest (Nat.min_le_right _ _) (by omega) hblock

theorem copyBuffered_spec (base : ℕ) {bytes offset : ℕ} {tail : List UInt8}
    (h : offset + tail.length = bytes) (rest : List UInt8) :
    ∃ done, copyBuffered calls lz4 framed destination base bytes offset
        (encode lz4 framed tail ++ rest) = some done ∧
      done.Takes destination offset tail rest := by
  induction hn : tail.length using Nat.strong_induction_on generalizing offset tail with
  | _ n ih =>
    subst hn
    rw [copyBuffered]
    by_cases hlt : offset < bytes
    · obtain ⟨part, left, hpart, hleft, rfl, hread⟩ :=
        read_chunk lz4 framed htodChunkBytes (by decide) (by decide) tail rest
      have hchunk : min htodChunkBytes (bytes - offset) =
          min htodChunkBytes (part ++ left).length := by
        rw [← h, Nat.add_sub_cancel_left]
      have hpos : 0 < htodChunkBytes := by decide
      rw [dif_pos hlt, hchunk]
      dsimp only
      rw [hread]
      dsimp only
      rw [← hpart, show bytes - (offset + part.length) = left.length by omega]
      by_cases hcopy : calls.memcpyHtoDAsync (base + offset) ≠ .success
      · rw [if_pos hcopy, drainAsync_encode]
        exact ⟨_, rfl, (AsyncCopies.takes_of_ne hcopy).prepend⟩
      · have hnext : offset + part.length + left.length = bytes := by omega
        obtain ⟨done, hloop, htakes⟩ := ih left.length (by omega) hnext rfl
        rw [if_neg hcopy, hloop]
        exact ⟨_, rfl, htakes.prepend⟩
    · obtain rfl := List.length_eq_zero_iff.mp (show tail.length = 0 by omega)
      rw [dif_neg hlt, encode_nil, List.nil_append]
      exact ⟨_, rfl, AsyncCopies.takes_nil⟩

theorem enqueueSpill_spec (base : ℕ) (tail rest : List UInt8) :
    ∃ consumed done, enqueueSpill calls lz4 framed destination base tail.length
        (encode lz4 framed tail ++ rest) = some (consumed, done) ∧
      if consumed then done.Takes destination 0 tail rest
      else ∃ result, result ≠ .success ∧
        done = { result, inbound := encode lz4 framed tail ++ rest } := by
  rw [enqueueSpill]
  dsimp only
  by_cases hroom : calls.emplaceSpill
  · rw [if_neg (by simp [hroom])]
    split_ifs with halloc hcreate
    · exact ⟨_, _, rfl, calls.eventCreate, hcreate, rfl⟩
    · obtain ⟨done, hloop, htakes⟩ :=
        copyBuffered_spec calls lz4 framed destination base (Nat.zero_add tail.length) rest
      rw [hloop]
      refine ⟨_, _, rfl, htakes.withResult fun hsuccess ↦ ?_⟩
      by_contra hfailed
      exact hfailed (by rwa [if_neg hfailed] at hsuccess)
    · exact ⟨_, _, rfl, calls.memHostAlloc, halloc, rfl⟩
  · rw [if_pos (by simpa using hroom)]
    exact ⟨_, _, rfl, .errorOutOfMemory, by simp, rfl⟩

/-- The slots take the front of the payload that they are given, or an error occurs at one of them
and the rest is drained. -/
theorem copySlots_spec {bytes offset : ℕ} {tail : List UInt8} (h : offset + tail.length = bytes)
    (rest : List UInt8) :
    ∃ taken done, copySlots calls lz4 framed destination bytes offset
        (encode lz4 framed tail ++ rest) = some (taken, done) ∧
      ((∃ part left, tail = part ++ left ∧ taken = offset + part.length ∧
          done.result = .success ∧ done.inbound = encode lz4 framed left ++ rest ∧
          Consecutive destination offset done.copies ∧ done.copied = part) ∨
        done.result ≠ .success ∧ taken ≠ 0 ∧ done.Takes destination offset tail rest) := by
  -- the induction is on what is left of the payload; every chunk is longer than 0
  induction hn : tail.length using Nat.strong_induction_on generalizing offset tail with
  | _ n ih =>
    subst hn
    rw [copySlots]
    -- where the loop stops for want of a slot, or of bytes, it has copied what came before
    have hstops : (∃ part left, tail = part ++ left ∧ offset = offset + part.length ∧
        (⟨.success, encode lz4 framed tail ++ rest, []⟩ : AsyncCopies).result = .success ∧
        encode lz4 framed tail ++ rest = encode lz4 framed left ++ rest ∧
        Consecutive destination offset [] ∧
        (⟨.success, encode lz4 framed tail ++ rest, []⟩ : AsyncCopies).copied = part) :=
      ⟨[], tail, rfl, rfl, rfl, rfl, trivial, rfl⟩
    by_cases hlt : offset < bytes
    · rw [dif_pos hlt]
      by_cases hslot : calls.acquireSlot offset
      · obtain ⟨part, left, hpart, hleft, rfl, hread⟩ :=
          read_chunk lz4 framed asyncHtodSlotBytes (by decide) (by decide) tail rest
        have hchunk : min asyncHtodSlotBytes (bytes - offset) =
            min asyncHtodSlotBytes (part ++ left).length := by
          rw [← h, Nat.add_sub_cancel_left]
        have hpos : 0 < asyncHtodSlotBytes := by decide
        rw [if_pos hslot, hchunk]
        dsimp only
        rw [hread]
        dsimp only
        rw [← hpart, show bytes - (offset + part.length) = left.length by omega]
        have hnext : offset + part.length ≠ 0 := by omega
        split_ifs with hcopy hpublish
        · rw [drainAsync_encode]
          exact ⟨_, _, rfl, Or.inr ⟨hcopy, hnext, (AsyncCopies.takes_of_ne hcopy).prepend⟩⟩
        · rw [drainAsync_encode]
          exact ⟨_, _, rfl, Or.inr ⟨hpublish, hnext, (AsyncCopies.takes_of_ne hpublish).prepend⟩⟩
        · have hbytes : offset + part.length + left.length = bytes := by omega
          obtain ⟨taken, done, hloop, hdone⟩ := ih left.length (by omega) hbytes rfl
          rw [hloop]
          refine ⟨_, _, rfl, hdone.imp ?_ ?_⟩
          · rintro ⟨part', left', rfl, rfl, hsuccess, hinbound, hconsecutive, hcopied⟩
            refine ⟨part ++ part', left', (List.append_assoc _ _ _).symm, ?_, hsuccess, hinbound,
              ⟨rfl, hconsecutive⟩, congrArg (part ++ ·) hcopied⟩
            rw [List.length_append, Nat.add_assoc]
            rfl
          · rintro ⟨hfailed, htaken, htakes⟩
            exact ⟨hfailed, htaken, htakes.prepend⟩
      -- no slot in time: the rest is left for a spill
      · rw [if_neg hslot]
        exact ⟨_, _, rfl, Or.inl hstops⟩
    · rw [dif_neg hlt]
      exact ⟨_, _, rfl, Or.inl hstops⟩

theorem copyBehindSlots_spec {part left : List UInt8} (rest : List UInt8) {done : AsyncCopies}
    (hsuccess : done.result = .success) (hinbound : done.inbound = encode lz4 framed left ++ rest)
    (hconsecutive : Consecutive destination 0 done.copies) (hcopied : done.copied = part) :
    ∃ done', copyBehindSlots calls lz4 framed destination (part ++ left).length part.length done =
        some done' ∧
      done'.Takes destination 0 (part ++ left) rest := by
  rw [copyBehindSlots]
  by_cases hleft : part.length < (part ++ left).length
  · have hremaining : (part ++ left).length - part.length = left.length := by
      rw [List.length_append, Nat.add_sub_cancel_left]
    obtain ⟨consumed, spilled, hspill, hspilled⟩ := enqueueSpill_spec calls lz4 framed
      (devAdd destination part.length) part.length left rest
    rw [if_pos ⟨hsuccess, hleft⟩, hremaining, hinbound]
    dsimp only
    rw [hspill]
    have hjoin {spilled : AsyncCopies}
        (h : spilled.Takes (devAdd destination part.length) 0 left rest) :
        ({ spilled with copies := done.copies ++ spilled.copies } : AsyncCopies).Takes
          destination 0 (part ++ left) rest :=
      AsyncCopies.Takes.append hconsecutive hcopied
        ⟨h.inbound, by simpa [consecutive_devAdd] using h.consecutive, h.front, h.whole⟩
    cases consumed with
    | true => exact ⟨_, rfl, hjoin hspilled⟩
    | false =>
      obtain ⟨result, hresult, rfl⟩ := hspilled
      simp only [Option.bind_some, Bool.false_eq_true, if_false, drainPayload_encode]
      exact ⟨_, rfl, hjoin (AsyncCopies.takes_of_ne hresult)⟩
  · obtain rfl : left = [] := List.length_eq_zero_iff.mp (by
      rw [List.length_append] at hleft
      omega)
    rw [if_neg fun h ↦ hleft h.2, if_neg fun h ↦ h.1 hsuccess, List.append_nil]
    rw [encode_nil, List.nil_append] at hinbound
    exact ⟨_, rfl, hinbound, hconsecutive, hcopied ▸ List.prefix_rfl, fun _ ↦ hcopied⟩

/-- **The payload is taken.** Through slots, a spill or a drain, all of it is consumed. -/
theorem serverCopyHtodAsync_spec (state : Bool) (payload rest : List UInt8) :
    ∃ done, serverCopyHtodAsync calls lz4 framed state destination payload.length
        (encode lz4 framed payload ++ rest) = some done ∧
      done.Takes destination 0 payload rest := by
  rw [serverCopyHtodAsync]
  by_cases hcontext : asyncContextResult calls state = .success
  · obtain ⟨taken, done, hslots, hdone⟩ :=
      copySlots_spec calls lz4 framed destination (Nat.zero_add payload.length) rest
    simp only [hcontext, if_true, hslots, Option.bind_some]
    rcases hdone with
      ⟨part, left, rfl, rfl, hsuccess, hinbound, hconsecutive, hcopied⟩ | ⟨hfailed, htaken, htakes⟩
    · rw [Nat.zero_add]
      exact copyBehindSlots_spec calls lz4 framed destination rest hsuccess hinbound hconsecutive
        hcopied
    · rw [copyBehindSlots, if_neg fun h ↦ hfailed h.1, if_neg fun h ↦ htaken h.2]
      exact ⟨_, rfl, htakes⟩
  · simp only [hcontext, if_false, Option.bind_some, copyBehindSlots, false_and, ne_eq,
      not_false_eq_true, and_self, if_true, drainPayload_encode]
    exact ⟨_, rfl, AsyncCopies.takes_of_ne hcontext⟩

theorem copyHtodAsyncWindows_spec (payload rest : List UInt8) :
    ∃ done, copyHtodAsyncWindows calls lz4 framed destination payload.length
        (encode lz4 framed payload ++ rest) = some done ∧
      done.Takes destination 0 payload rest := by
  rw [copyHtodAsyncWindows]
  split_ifs with hfailed
  · rw [drainAsync_encode]
    exact ⟨_, rfl, AsyncCopies.takes_of_ne hfailed.2⟩
  · obtain ⟨done, hloop, htakes⟩ :=
      copyBuffered_spec calls lz4 framed destination 0 (Nat.zero_add payload.length) rest
    rw [hloop]
    refine ⟨_, rfl, htakes.withResult fun hsuccess ↦ ?_⟩
    by_contra hne
    exact hne (by rwa [if_neg fun h ↦ hne h.2] at hsuccess)

end Paths

/-! ## A copy without a failure

When no call fails the result is `CUDA_SUCCESS`, also where the slots run out: the chunks in front
go through slots, the others through the spill. -/

/-- No call of `lupine_server_copy_htod_async` fails, but there may be no slot. -/
structure AsyncHtodCalls.Succeed (calls : AsyncHtodCalls) : Prop where
  context : asyncContextResult calls true = .success
  memcpyHtoDAsync : ∀ offset, calls.memcpyHtoDAsync offset = .success
  publishSlot : ∀ offset, calls.publishSlot offset = .success
  emplaceSpill : calls.emplaceSpill = true
  memHostAlloc : calls.memHostAlloc = .success
  eventCreate : calls.eventCreate = .success
  publishSpill : calls.publishSpill = .success

section Succeed

variable {calls : AsyncHtodCalls} {lz4 : Lz4} {framed : Bool} {destination : CUdeviceptr}
  {input : List UInt8} {done : AsyncCopies} {bytes : ℕ}

theorem copyBuffered_succeeds (hcalls : calls.Succeed) {base offset : ℕ}
    (h : copyBuffered calls lz4 framed destination base bytes offset input = some done) :
    done.result = .success ∧ bytes - offset ≤ done.copies.length * htodChunkBytes := by
  induction hn : bytes - offset using Nat.strong_induction_on
    generalizing offset input done with
  | _ n ih =>
    subst hn
    have hpos : 0 < htodChunkBytes := by decide
    rw [copyBuffered] at h
    by_cases hlt : offset < bytes
    · rw [dif_pos hlt] at h
      dsimp only at h
      match hread : unlessNegative
        (readPayloadPart lz4 framed input (min htodChunkBytes (bytes - offset))) with
      | none => simp [hread] at h
      | some r =>
        rw [hread] at h
        dsimp only at h
        rw [if_neg (not_not_intro (hcalls.memcpyHtoDAsync _))] at h
        obtain ⟨later, hlater, rfl⟩ := Option.map_eq_some_iff.mp h
        obtain ⟨hsuccess, hcount⟩ := ih _ (by omega) hlater rfl
        refine ⟨hsuccess, ?_⟩
        rw [AsyncCopies.prepend, List.length_cons, Nat.succ_mul]
        omega
    · rw [dif_neg hlt] at h
      obtain rfl := Option.some.inj h
      exact ⟨rfl, by rw [Nat.sub_eq_zero_of_le (not_lt.mp hlt)]; exact Nat.zero_le _⟩

theorem copySlots_succeeds (hcalls : calls.Succeed) {offset taken : ℕ} (hle : offset ≤ bytes)
    (h : copySlots calls lz4 framed destination bytes offset input = some (taken, done)) :
    done.result = .success ∧ taken ≤ offset + done.copies.length * asyncHtodSlotBytes ∧
      taken ≤ bytes ∧ (taken < bytes → calls.acquireSlot taken = false) := by
  induction hn : bytes - offset using Nat.strong_induction_on
    generalizing offset taken input done with
  | _ n ih =>
    subst hn
    have hpos : 0 < asyncHtodSlotBytes := by decide
    rw [copySlots] at h
    by_cases hlt : offset < bytes
    · rw [dif_pos hlt] at h
      by_cases hslot : calls.acquireSlot offset
      · rw [if_pos hslot] at h
        dsimp only at h
        match hread : unlessNegative
          (readPayloadPart lz4 framed input (min asyncHtodSlotBytes (bytes - offset))) with
        | none => simp [hread] at h
        | some r =>
          rw [hread] at h
          dsimp only at h
          rw [if_neg (not_not_intro (hcalls.memcpyHtoDAsync _)),
            if_neg (not_not_intro (hcalls.publishSlot _))] at h
          obtain ⟨⟨taken', later⟩, hlater, heq⟩ := Option.map_eq_some_iff.mp h
          obtain ⟨rfl, rfl⟩ := Prod.mk.inj heq
          obtain ⟨hsuccess, hcount, hend, hstop⟩ := ih _ (by omega) (by omega) hlater rfl
          refine ⟨hsuccess, ?_, hend, hstop⟩
          rw [AsyncCopies.prepend, List.length_cons, Nat.succ_mul, id]
          omega
      · rw [if_neg hslot] at h
        obtain ⟨rfl, rfl⟩ := Prod.mk.inj (Option.some.inj h)
        exact ⟨rfl, Nat.le_add_right _ _, hle, fun _ ↦ Bool.not_eq_true _ ▸ hslot⟩
    · rw [dif_neg hlt] at h
      obtain ⟨rfl, rfl⟩ := Prod.mk.inj (Option.some.inj h)
      exact ⟨rfl, Nat.le_add_right _ _, hle, fun hmore ↦ absurd hmore hlt⟩

theorem enqueueSpill_succeeds (hcalls : calls.Succeed) {base : ℕ} {consumed : Bool}
    (h : enqueueSpill calls lz4 framed destination base bytes input = some (consumed, done)) :
    consumed = true ∧ done.result = .success ∧ bytes ≤ done.copies.length * htodChunkBytes := by
  rw [enqueueSpill, hcalls.emplaceSpill, if_neg (by simp)] at h
  simp only [hcalls.memHostAlloc, hcalls.eventCreate, hcalls.publishSpill, if_true, ne_eq,
    not_true_eq_false, if_false] at h
  obtain ⟨spilled, hspilled, heq⟩ := Option.map_eq_some_iff.mp h
  obtain ⟨rfl, rfl⟩ := Prod.mk.inj heq
  obtain ⟨hsuccess, hcount⟩ := copyBuffered_succeeds hcalls hspilled
  exact ⟨rfl, if_pos hsuccess, hcount⟩

/-- **Without a failure** the copy succeeds. From the first chunk for which there is no slot on, the
copies are out of the spill. -/
theorem serverCopyHtodAsync_succeeds (hcalls : calls.Succeed)
    (h : serverCopyHtodAsync calls lz4 framed true destination bytes input = some done) :
    done.result = .success ∧ ∃ taken slots spilled, done.copies = slots ++ spilled ∧
      taken ≤ slots.length * asyncHtodSlotBytes ∧
      bytes - taken ≤ spilled.length * htodChunkBytes ∧
      (taken < bytes → calls.acquireSlot taken = false) := by
  rw [serverCopyHtodAsync] at h
  simp only [hcalls.context, if_true] at h
  obtain ⟨⟨taken, first⟩, hslots, h⟩ := Option.bind_eq_some_iff.mp h
  obtain ⟨hsuccess, hcount, hend, hstop⟩ :=
    copySlots_succeeds hcalls (Nat.zero_le bytes) hslots
  rw [Nat.zero_add] at hcount
  rw [copyBehindSlots] at h
  by_cases hmore : taken < bytes
  · rw [if_pos ⟨hsuccess, hmore⟩] at h
    obtain ⟨⟨consumed, spilled⟩, hspill, h⟩ := Option.bind_eq_some_iff.mp h
    obtain ⟨rfl, hspilled, hrest⟩ := enqueueSpill_succeeds hcalls hspill
    obtain rfl := Option.some.inj h
    exact ⟨hspilled, taken, first.copies, spilled.copies, rfl, hcount, hrest, hstop⟩
  · rw [if_neg fun h ↦ hmore h.2, if_neg fun h ↦ h.1 hsuccess] at h
    obtain rfl := Option.some.inj h
    have hrest : bytes - taken ≤ 0 * htodChunkBytes := by omega
    exact ⟨hsuccess, taken, first.copies, [], (List.append_nil _).symm, hcount, hrest, hstop⟩

end Succeed

/-! ## A payload that ends early

When the connection is lost in the middle of a payload, a path that does not fail has not needed
more: it does the same with the whole of it. -/

/-- The same where more is inbound behind it. -/
def AsyncCopies.behind (done : AsyncCopies) (more : List UInt8) : AsyncCopies :=
  { done with inbound := done.inbound ++ more }

section More

variable {calls : AsyncHtodCalls} {lz4 : Lz4} {framed : Bool} {destination : CUdeviceptr}
  {input : List UInt8} {done : AsyncCopies} (more : List UInt8)

theorem drainAsync_more {result : CUresult} {bytes : ℕ}
    (h : drainAsync lz4 framed result input bytes = some done) :
    drainAsync lz4 framed result (input ++ more) bytes = some (done.behind more) := by
  obtain ⟨rest, hdrain, rfl⟩ := Option.map_eq_some_iff.mp h
  rw [drainAsync, drainPayload_more more hdrain]
  rfl

theorem copyBuffered_more {base bytes offset : ℕ}
    (h : copyBuffered calls lz4 framed destination base bytes offset input = some done) :
    copyBuffered calls lz4 framed destination base bytes offset (input ++ more) =
      some (done.behind more) := by
  induction hn : bytes - offset using Nat.strong_induction_on
    generalizing offset input done with
  | _ n ih =>
    subst hn
    rw [copyBuffered] at h ⊢
    by_cases hlt : offset < bytes
    · rw [dif_pos hlt] at h ⊢
      dsimp only at h ⊢
      match hread : unlessNegative
        (readPayloadPart lz4 framed input (min htodChunkBytes (bytes - offset))) with
      | none => simp [hread] at h
      | some r =>
        rw [hread] at h
        rw [unlessNegative_readPayloadPart_more more hread]
        dsimp only at h ⊢
        obtain ⟨rest, hrest, rfl⟩ := Option.map_eq_some_iff.mp h
        have hpos : 0 < htodChunkBytes := by decide
        split_ifs at hrest ⊢
        · rw [drainAsync_more more hrest]
          rfl
        · rw [ih _ (by omega) hrest rfl]
          rfl
    · rw [dif_neg hlt] at h ⊢
      obtain rfl := Option.some.inj h
      rfl

theorem enqueueSpill_more {base bytes : ℕ} {consumed : Bool}
    (h : enqueueSpill calls lz4 framed destination base bytes input = some (consumed, done)) :
    enqueueSpill calls lz4 framed destination base bytes (input ++ more) =
      some (consumed, done.behind more) := by
  rw [enqueueSpill] at h ⊢
  dsimp only at h ⊢
  split_ifs at h ⊢
  · obtain ⟨rfl, rfl⟩ := Prod.mk.inj (Option.some.inj h)
    rfl
  · obtain ⟨rfl, rfl⟩ := Prod.mk.inj (Option.some.inj h)
    rfl
  · obtain ⟨copied, hcopied, heq⟩ := Option.map_eq_some_iff.mp h
    obtain ⟨rfl, rfl⟩ := Prod.mk.inj heq
    rw [copyBuffered_more more hcopied]
    rfl
  · obtain ⟨rfl, rfl⟩ := Prod.mk.inj (Option.some.inj h)
    rfl

theorem copySlots_more {bytes offset taken : ℕ}
    (h : copySlots calls lz4 framed destination bytes offset input = some (taken, done)) :
    copySlots calls lz4 framed destination bytes offset (input ++ more) =
      some (taken, done.behind more) := by
  induction hn : bytes - offset using Nat.strong_induction_on
    generalizing offset input done taken with
  | _ n ih =>
    subst hn
    rw [copySlots] at h ⊢
    split_ifs at h ⊢
    · dsimp only at h ⊢
      match hread : unlessNegative
        (readPayloadPart lz4 framed input (min asyncHtodSlotBytes (bytes - offset))) with
      | none => simp [hread] at h
      | some r =>
        rw [hread] at h
        rw [unlessNegative_readPayloadPart_more more hread]
        dsimp only at h ⊢
        obtain ⟨⟨next, rest⟩, hrest, heq⟩ := Option.map_eq_some_iff.mp h
        obtain ⟨rfl, rfl⟩ := Prod.mk.inj heq
        have hpos : 0 < asyncHtodSlotBytes := by decide
        split_ifs at hrest ⊢
        · obtain ⟨drained, hdrained, heq⟩ := Option.map_eq_some_iff.mp hrest
          obtain ⟨rfl, rfl⟩ := Prod.mk.inj heq
          rw [drainAsync_more more hdrained]
          rfl
        · obtain ⟨drained, hdrained, heq⟩ := Option.map_eq_some_iff.mp hrest
          obtain ⟨rfl, rfl⟩ := Prod.mk.inj heq
          rw [drainAsync_more more hdrained]
          rfl
        · rw [ih _ (by omega) hrest rfl]
          rfl
    · obtain ⟨rfl, rfl⟩ := Prod.mk.inj (Option.some.inj h)
      rfl
    · obtain ⟨rfl, rfl⟩ := Prod.mk.inj (Option.some.inj h)
      rfl

theorem copyBehindSlots_more {bytes offset : ℕ} {slots : AsyncCopies}
    (h : copyBehindSlots calls lz4 framed destination bytes offset slots = some done) :
    copyBehindSlots calls lz4 framed destination bytes offset (slots.behind more) =
      some (done.behind more) := by
  rw [copyBehindSlots] at h ⊢
  have hresult : (slots.behind more).result = slots.result := rfl
  rw [hresult]
  split_ifs at h ⊢
  · obtain ⟨⟨consumed, spilled⟩, hspilled, h⟩ := Option.bind_eq_some_iff.mp h
    obtain ⟨inbound, hinbound, rfl⟩ := Option.map_eq_some_iff.mp h
    refine Option.bind_eq_some_iff.mpr
      ⟨(consumed, spilled.behind more), enqueueSpill_more more hspilled, ?_⟩
    refine Option.map_eq_some_iff.mpr ⟨inbound ++ more, ?_, rfl⟩
    split_ifs at hinbound ⊢
    · obtain rfl := Option.some.inj hinbound
      rfl
    · exact drainPayload_more more hinbound
  · obtain ⟨inbound, hdrain, rfl⟩ := Option.map_eq_some_iff.mp h
    rw [AsyncCopies.behind, drainPayload_more more hdrain]
    rfl
  · obtain rfl := Option.some.inj h
    rfl

theorem serverCopyHtodAsync_more {state : Bool} {bytes : ℕ}
    (h : serverCopyHtodAsync calls lz4 framed state destination bytes input = some done) :
    serverCopyHtodAsync calls lz4 framed state destination bytes (input ++ more) =
      some (done.behind more) := by
  rw [serverCopyHtodAsync] at h ⊢
  obtain ⟨⟨offset, slots⟩, hslots, h⟩ := Option.bind_eq_some_iff.mp h
  refine Option.bind_eq_some_iff.mpr ⟨(offset, slots.behind more), ?_, copyBehindSlots_more more h⟩
  split_ifs at hslots ⊢
  · exact copySlots_more more hslots
  · obtain ⟨rfl, rfl⟩ := Prod.mk.inj (Option.some.inj hslots)
    rfl

theorem copyHtodAsyncWindows_more {bytes : ℕ}
    (h : copyHtodAsyncWindows calls lz4 framed destination bytes input = some done) :
    copyHtodAsyncWindows calls lz4 framed destination bytes (input ++ more) =
      some (done.behind more) := by
  rw [copyHtodAsyncWindows] at h ⊢
  split_ifs at h ⊢
  · exact drainAsync_more more h
  · obtain ⟨copied, hcopied, rfl⟩ := Option.map_eq_some_iff.mp h
    rw [copyBuffered_more more hcopied]
    rfl

theorem readCaptured_more {captureHost : HostPtr} {bytes : ℕ} {captured : List UInt8}
    (h : readCaptured lz4 framed captureHost bytes input = some (done, captured)) :
    readCaptured lz4 framed captureHost bytes (input ++ more) =
      some (done.behind more, captured) := by
  rw [readCaptured] at h ⊢
  split_ifs at h ⊢
  · obtain ⟨drained, hdrained, heq⟩ := Option.map_eq_some_iff.mp h
    obtain ⟨rfl, rfl⟩ := Prod.mk.inj heq
    rw [drainAsync_more more hdrained]
    rfl
  · obtain ⟨r, hread, heq⟩ := Option.map_eq_some_iff.mp h
    obtain ⟨rfl, rfl⟩ := Prod.mk.inj heq
    rw [unlessNegative_readPayloadPart_more more hread]
    rfl
  · obtain ⟨rfl, rfl⟩ := Prod.mk.inj (Option.some.inj h)
    rfl

theorem takeAsyncPayload_more {state capturing : Bool} {queried : CUresult} {captureHost : HostPtr}
    {bytes : ℕ} {captured : List UInt8}
    (h : takeAsyncPayload calls lz4 framed state queried capturing captureHost destination bytes
      input = some (done, captured)) :
    takeAsyncPayload calls lz4 framed state queried capturing captureHost destination bytes
      (input ++ more) = some (done.behind more, captured) := by
  rw [takeAsyncPayload] at h ⊢
  split_ifs at h ⊢
  · obtain ⟨drained, hdrained, heq⟩ := Option.map_eq_some_iff.mp h
    obtain ⟨rfl, rfl⟩ := Prod.mk.inj heq
    rw [drainAsync_more more hdrained]
    rfl
  · exact readCaptured_more more h
  · obtain ⟨copied, hcopied, heq⟩ := Option.map_eq_some_iff.mp h
    obtain ⟨rfl, rfl⟩ := Prod.mk.inj heq
    rw [copyHtodAsyncWindows_more more hcopied]
    rfl
  · obtain ⟨copied, hcopied, heq⟩ := Option.map_eq_some_iff.mp h
    obtain ⟨rfl, rfl⟩ := Prod.mk.inj heq
    rw [serverCopyHtodAsync_more more hcopied]
    rfl

/-- A handler that returns `0` has not needed more than was inbound. -/
theorem handleManualCuMemcpyHtoDAsync_v2_more {state : Bool} {conn conn' : CopyConn}
    (h : handleManualCuMemcpyHtoDAsync_v2 calls lz4 state { conn with inbound := input } =
      some (conn', done)) :
    handleManualCuMemcpyHtoDAsync_v2 calls lz4 state { conn with inbound := input ++ more } =
      some ({ conn' with inbound := conn'.inbound ++ more }, done.behind more) := by
  rw [handleManualCuMemcpyHtoDAsync_v2] at h ⊢
  obtain ⟨r₁, hread₁, h⟩ := Option.bind_eq_some_iff.mp h
  obtain ⟨r₂, hread₂, h⟩ := Option.bind_eq_some_iff.mp h
  obtain ⟨r₃, hread₃, h⟩ := Option.bind_eq_some_iff.mp h
  obtain ⟨r₄, hread₄, h⟩ := Option.bind_eq_some_iff.mp h
  obtain ⟨⟨taken, captured⟩, htaken, h⟩ := Option.bind_eq_some_iff.mp h
  refine Option.bind_eq_some_iff.mpr ⟨_, unlessNegative_rpcRead_more more hread₁, ?_⟩
  refine Option.bind_eq_some_iff.mpr ⟨_, unlessNegative_rpcRead_more more hread₂, ?_⟩
  refine Option.bind_eq_some_iff.mpr ⟨_, unlessNegative_rpcRead_more more hread₃, ?_⟩
  refine Option.bind_eq_some_iff.mpr ⟨_, unlessNegative_rpcRead_more more hread₄, ?_⟩
  refine Option.bind_eq_some_iff.mpr ⟨_, takeAsyncPayload_more more htaken, ?_⟩
  dsimp only at h ⊢
  split_ifs at h ⊢
  obtain ⟨rfl, rfl⟩ := Prod.mk.inj (Option.some.inj h)
  have hresult : (taken.behind more).result = taken.result := rfl
  rw [captureCopy, captureCopy, hresult]
  split_ifs
  · rfl
  · rfl

end More

/-! ## The request

A request that is there as a whole is decoded, and its payload taken unless the size overflows the
`int` of a read. No outcome of the calls makes the handler fail on it. -/

/-- A request as the client writes it; `graphHostSource` is for payloads kept for a graph. -/
structure AsyncHtodRequest extends HtodRequest where
  stream : CUstream
  graphHostSource : CUdeviceptr
  stream_lt : stream < 256 ^ 8
  graphHostSource_lt : graphHostSource < 256 ^ 8

def AsyncHtodRequest.encoding (request : AsyncHtodRequest) (lz4 : Lz4) (compressLz4 : Bool) :
    List UInt8 :=
  leBytes 8 request.destination ++ (leBytes 8 request.payload.length ++
    (leBytes 8 request.stream ++ (leBytes 8 request.graphHostSource ++
      encode lz4 (payloadFramed compressLz4 request.payload.length) request.payload)))

section Request

variable (calls : AsyncHtodCalls) (lz4 : Lz4) (state : Bool)

theorem readCaptured_takes {framed : Bool} {captureHost : HostPtr} {destination : CUdeviceptr}
    (hdestination : destination < 256 ^ 8) {payload rest : List UInt8} {done : AsyncCopies}
    {captured : List UInt8}
    (h : readCaptured lz4 framed captureHost payload.length (encode lz4 framed payload ++ rest) =
      some (done, captured)) :
    (captureCopy calls .success true destination captured done).Takes destination 0 payload
      rest := by
  have hcopied : (⟨calls.memcpyCaptured, rest, [(destination, payload)]⟩ : AsyncCopies).Takes
      destination 0 payload rest :=
    ⟨rfl, ⟨(Nat.mod_eq_of_lt hdestination).symm, trivial⟩, by simp [AsyncCopies.copied],
      fun _ ↦ by simp [AsyncCopies.copied]⟩
  rw [readCaptured, drainAsync_encode, readPayloadPart_encode] at h
  split_ifs at h with hnull hbytes
  · obtain ⟨rfl, rfl⟩ := Prod.mk.inj (Option.some.inj h)
    exact AsyncCopies.takes_of_ne (by simp)
  · obtain ⟨r, hread, heq⟩ := Option.map_eq_some_iff.mp h
    obtain ⟨rfl, rfl⟩ := Prod.mk.inj heq
    obtain rfl := Option.some.inj (unlessNegative_eq_some.mp hread).1
    exact hcopied
  · obtain ⟨rfl, rfl⟩ := Prod.mk.inj (Option.some.inj h)
    obtain rfl := List.length_eq_zero_iff.mp (Decidable.not_not.mp hbytes)
    rw [encode_nil, List.nil_append]
    exact hcopied

theorem takeAsyncPayload_takes {framed capturing : Bool} {queried : CUresult}
    {captureHost : HostPtr} {destination : CUdeviceptr} (hdestination : destination < 256 ^ 8)
    {payload rest : List UInt8} {done : AsyncCopies} {captured : List UInt8}
    (h : takeAsyncPayload calls lz4 framed state queried capturing captureHost destination
      payload.length (encode lz4 framed payload ++ rest) = some (done, captured)) :
    (captureCopy calls queried capturing destination captured done).Takes destination 0 payload
      rest := by
  rw [takeAsyncPayload] at h
  split_ifs at h with hqueried hcapturing hwindows
  · rw [drainAsync_encode] at h
    obtain ⟨rfl, rfl⟩ := Prod.mk.inj (Option.some.inj h)
    rw [captureCopy, if_neg fun hcapture ↦ hqueried hcapture.1]
    exact AsyncCopies.takes_of_ne hqueried
  · obtain rfl := Decidable.not_not.mp hqueried
    subst hcapturing
    exact readCaptured_takes calls lz4 hdestination h
  · obtain ⟨copied, hcopied, htakes⟩ :=
      copyHtodAsyncWindows_spec calls lz4 framed destination payload rest
    rw [hcopied] at h
    obtain ⟨rfl, rfl⟩ := Prod.mk.inj (Option.some.inj h)
    rwa [captureCopy, if_neg fun hcapture ↦ hcapturing hcapture.2.1]
  · obtain ⟨copied, hcopied, htakes⟩ :=
      serverCopyHtodAsync_spec calls lz4 framed destination state payload rest
    rw [hcopied] at h
    obtain ⟨rfl, rfl⟩ := Prod.mk.inj (Option.some.inj h)
    rwa [captureCopy, if_neg fun hcapture ↦ hcapturing hcapture.2.1]

/-- It is taken, unless its size overflows the `int` of a read. -/
theorem takeAsyncPayload_isSome (framed capturing : Bool) (queried : CUresult)
    (captureHost : HostPtr) (destination : CUdeviceptr) {payload : List UInt8}
    (hsize : payload.length < 2 ^ 31) (rest : List UInt8) :
    (takeAsyncPayload calls lz4 framed state queried capturing captureHost destination
      payload.length (encode lz4 framed payload ++ rest)).isSome := by
  have hread : unlessNegative
      (readPayloadPart lz4 framed (encode lz4 framed payload ++ rest) payload.length) =
        some ⟨staticCastInt payload.length, payload, rest⟩ := by
    refine unlessNegative_eq_some.mpr ⟨readPayloadPart_encode lz4 framed payload rest, ?_⟩
    rw [staticCastInt_of_lt hsize]
    exact Int.natCast_nonneg _
  obtain ⟨copied, hcopied, -⟩ :=
    copyHtodAsyncWindows_spec calls lz4 framed destination payload rest
  obtain ⟨served, hserved, -⟩ :=
    serverCopyHtodAsync_spec calls lz4 framed destination state payload rest
  rw [takeAsyncPayload, readCaptured, drainAsync_encode, drainAsync_encode, hread, hcopied, hserved]
  split_ifs <;> rfl

theorem handleManualCuMemcpyHtoDAsync_v2_encoding (request : AsyncHtodRequest) (conn : CopyConn)
    (rest : List UInt8) :
    handleManualCuMemcpyHtoDAsync_v2 calls lz4 state
        { conn with inbound := request.encoding lz4 conn.compressLz4 ++ rest } =
      (takeAsyncPayload calls lz4 (payloadFramed conn.compressLz4 request.payload.length) state
        (captureStatus calls request.stream).1 (captureStatus calls request.stream).2
        (if request.graphHostSource = 0 then calls.allocCaptureScratch else request.graphHostSource)
        request.destination request.payload.length
        (encode lz4 (payloadFramed conn.compressLz4 request.payload.length) request.payload
          ++ rest)).bind fun taken ↦
        if conn.readId < 0 then none
        else
          let done := captureCopy calls (captureStatus calls request.stream).1
            (captureStatus calls request.stream).2 request.destination taken.2 taken.1
          some ({ conn with inbound := done.inbound, readId := 0 }, done) := by
  rw [handleManualCuMemcpyHtoDAsync_v2, AsyncHtodRequest.encoding, List.append_assoc,
    List.append_assoc, List.append_assoc, List.append_assoc,
    unlessNegative_rpcRead_leBytes 8 _ _ (by decide)]
  simp only [Option.bind_eq_bind, Option.bind_some]
  rw [unlessNegative_rpcRead_leBytes 8 _ _ (by decide)]
  simp only [Option.bind_some]
  rw [unlessNegative_rpcRead_leBytes 8 _ _ (by decide)]
  simp only [Option.bind_some]
  rw [unlessNegative_rpcRead_leBytes 8 _ _ (by decide)]
  simp only [Option.bind_some, leValue_leBytes request.destination_lt,
    leValue_leBytes request.length_lt, leValue_leBytes request.stream_lt,
    leValue_leBytes request.graphHostSource_lt]

theorem handleManualCuMemcpyHtoDAsync_v2_takes {request : AsyncHtodRequest} {conn conn' : CopyConn}
    {rest : List UInt8} {done : AsyncCopies}
    (h : handleManualCuMemcpyHtoDAsync_v2 calls lz4 state
      { conn with inbound := request.encoding lz4 conn.compressLz4 ++ rest } =
        some (conn', done)) :
    conn'.inbound = rest ∧ done.Takes request.destination 0 request.payload rest := by
  rw [handleManualCuMemcpyHtoDAsync_v2_encoding] at h
  obtain ⟨⟨taken, captured⟩, htaken, h⟩ := Option.bind_eq_some_iff.mp h
  have htakes := takeAsyncPayload_takes calls lz4 state request.destination_lt htaken
  dsimp only at h
  split_ifs at h
  obtain ⟨rfl, rfl⟩ := Prod.mk.inj (Option.some.inj h)
  exact ⟨htakes.inbound, htakes⟩

/-- No outcome of the calls makes the handler fail: on a connection that holds the whole request it
returns `0`. -/
theorem handleManualCuMemcpyHtoDAsync_v2_returns (request : AsyncHtodRequest) (conn : CopyConn)
    (rest : List UInt8) (hid : 0 ≤ conn.readId) (hsize : request.payload.length < 2 ^ 31) :
    (handleManualCuMemcpyHtoDAsync_v2 calls lz4 state
      { conn with inbound := request.encoding lz4 conn.compressLz4 ++ rest }).isSome := by
  rw [handleManualCuMemcpyHtoDAsync_v2_encoding]
  obtain ⟨taken, htaken⟩ := Option.isSome_iff_exists.mp (takeAsyncPayload_isSome calls lz4 state
    (payloadFramed conn.compressLz4 request.payload.length) (captureStatus calls request.stream).2
    (captureStatus calls request.stream).1
    (if request.graphHostSource = 0 then calls.allocCaptureScratch else request.graphHostSource)
    request.destination hsize rest)
  rw [htaken, Option.bind_some, if_neg (not_lt.mpr hid)]
  rfl

theorem handleManualCuMemcpyHtoDAsync_v2_serverCopy {request : AsyncHtodRequest}
    {conn conn' : CopyConn} {rest : List UInt8} {done : AsyncCopies}
    (hwindows : calls.windows = false)
    (hstream : captureStatus calls request.stream = (.success, false))
    (h : handleManualCuMemcpyHtoDAsync_v2 calls lz4 state
      { conn with inbound := request.encoding lz4 conn.compressLz4 ++ rest } =
        some (conn', done)) :
    serverCopyHtodAsync calls lz4 (payloadFramed conn.compressLz4 request.payload.length) state
      request.destination request.payload.length
      (encode lz4 (payloadFramed conn.compressLz4 request.payload.length) request.payload
        ++ rest) = some done := by
  rw [handleManualCuMemcpyHtoDAsync_v2_encoding, hstream] at h
  obtain ⟨⟨taken, captured⟩, htaken, h⟩ := Option.bind_eq_some_iff.mp h
  simp only [takeAsyncPayload, ne_eq, not_true_eq_false, if_false, Bool.false_eq_true,
    hwindows] at htaken
  obtain ⟨served, hserved, heq⟩ := Option.map_eq_some_iff.mp htaken
  obtain ⟨rfl, rfl⟩ := Prod.mk.inj heq
  dsimp only at h
  split_ifs at h
  obtain ⟨-, rfl⟩ := Prod.mk.inj (Option.some.inj h)
  rw [hserved, captureCopy, if_neg fun hcapture ↦ absurd hcapture.2.1 Bool.false_ne_true]

/-- **The asynchronous copy.** Whatever the calls return, and wherever the connection may be lost: a
handler that returns `0` has consumed exactly the request, the copies it has issued are of a front
of the payload, in order and to consecutive addresses from the destination on, and where the result
is `CUDA_SUCCESS` they are of all of it. -/
theorem asyncHtod_takes (calls : AsyncHtodCalls) (lz4 : Lz4) (state : Bool) (conn : CopyConn)
    (request : AsyncHtodRequest) (rest input : List UInt8)
    (hinput : input <+: request.encoding lz4 conn.compressLz4 ++ rest) (conn' : CopyConn)
    (done : AsyncCopies)
    (hreturn : handleManualCuMemcpyHtoDAsync_v2 calls lz4 state { conn with inbound := input } =
      some (conn', done)) :
    input = request.encoding lz4 conn.compressLz4 ++ conn'.inbound ∧
      Consecutive request.destination 0 done.copies ∧ done.copied <+: request.payload ∧
      (done.result = .success → done.copied = request.payload) := by
  obtain ⟨more, hmore⟩ := hinput
  have hwhole := handleManualCuMemcpyHtoDAsync_v2_more more hreturn
  rw [hmore] at hwhole
  obtain ⟨hinbound, htakes⟩ := handleManualCuMemcpyHtoDAsync_v2_takes calls lz4 state hwhole
  refine ⟨?_, htakes.consecutive, htakes.front, htakes.whole⟩
  -- what is left of the input is what follows the request
  refine (List.append_left_inj more).mp ?_
  rw [hmore, List.append_assoc]
  exact congrArg _ hinbound.symm

/-- Two slots come free, and no call fails. -/
def twoSlotCalls : AsyncHtodCalls where
  streamIsCapturing := (.success, false)
  allocCaptureScratch := 0
  memcpyCaptured := .success
  ctxGetCurrent := (.success, 1)
  ctxGetDevice := .success
  operationAcquired := true
  acquireSlot offset := offset < 2 * asyncHtodSlotBytes
  memcpyHtoDAsync _ := .success
  publishSlot _ := .success
  emplaceSpill := true
  memHostAlloc := .success
  eventCreate := .success
  publishSpill := .success
  windows := false
  memAllocHost := .success
  deferHostFree := .success

theorem twoSlotCalls_succeed : twoSlotCalls.Succeed :=
  ⟨rfl, fun _ ↦ rfl, fun _ ↦ rfl, rfl, rfl, rfl, rfl⟩

/-- One byte more than there is room for in two slots. -/
def threeChunkRequest : AsyncHtodRequest where
  destination := 4096
  payload := List.replicate (2 * asyncHtodSlotBytes + 1) 5
  destination_lt := by decide
  length_lt := by
    rw [List.length_replicate]
    decide
  stream := 0
  graphHostSource := 0
  stream_lt := by decide
  graphHostSource_lt := by decide

theorem length_threeChunkRequest :
    threeChunkRequest.payload.length = 2 * asyncHtodSlotBytes + 1 := List.length_replicate

/-- Two chunks go through slots and the last byte through a spill, and the copy succeeds. Behind the
request is the first byte of the next one. -/
theorem asyncHtod_takes_threeChunkRequest :
    ∃ conn' done, handleManualCuMemcpyHtoDAsync_v2 twoSlotCalls literalLz4 true
        { inbound := threeChunkRequest.encoding literalLz4 false ++ [7]
          compressLz4 := false, readId := 1, closed := false, responses := [] } =
          some (conn', done) ∧
      conn'.inbound = [7] ∧ Consecutive 4096 0 done.copies ∧ done.result = .success ∧
      done.copied = threeChunkRequest.payload ∧ 2 < done.copies.length := by
  obtain ⟨⟨conn', done⟩, hreturn⟩ := Option.isSome_iff_exists.mp
    (handleManualCuMemcpyHtoDAsync_v2_returns twoSlotCalls literalLz4 true threeChunkRequest
      { inbound := [], compressLz4 := false, readId := 1, closed := false, responses := [] } [7]
      (by decide) (by rw [length_threeChunkRequest]; decide))
  obtain ⟨hinbound, hconsecutive, -, hwhole⟩ := asyncHtod_takes twoSlotCalls literalLz4 true
    { inbound := [], compressLz4 := false, readId := 1, closed := false, responses := [] }
    threeChunkRequest [7] _ List.prefix_rfl conn' done hreturn
  obtain ⟨hsuccess, taken, slots, spilled, hcopies, hslots, hspilled, hstop⟩ :=
    serverCopyHtodAsync_succeeds twoSlotCalls_succeed
      (handleManualCuMemcpyHtoDAsync_v2_serverCopy twoSlotCalls literalLz4 true rfl rfl hreturn)
  refine ⟨conn', done, hreturn, (List.append_cancel_left hinbound).symm, hconsecutive, hsuccess,
    hwhole hsuccess, ?_⟩
  rw [length_threeChunkRequest] at hspilled hstop
  rw [hcopies, List.length_append]
  by_cases hmore : taken < 2 * asyncHtodSlotBytes + 1
  · have htaken : 2 * asyncHtodSlotBytes ≤ taken := not_lt.mp (of_decide_eq_false (hstop hmore))
    rw [asyncHtodSlotBytes] at hslots hspilled htaken
    rw [htodChunkBytes] at hspilled
    omega
  · rw [asyncHtodSlotBytes] at hslots hmore
    omega

end Request

end Lupine
