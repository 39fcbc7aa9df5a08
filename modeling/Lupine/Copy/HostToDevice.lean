import Lupine.Cuda
import Lupine.Transport.Framing

/-!
# Synchronous host-to-device copies on the server

`handle_manual_cuMemcpyHtoD_v2` reads a destination, a byte count and a payload, moves the payload
to the device and answers with one result. The payload is taken off the connection by the pipelined
path (two pinned slots), by the serial path (one staging buffer), by the serial path from the middle
of the pipelined one, or by a drain; each CUDA call on the way may fail.

## Call outcomes

The outcomes of the calls are a parameter. A call site that a request can reach several times is
told apart by the payload offset or the device address it is made for, and is reached at most once
for each, so that a table of outcomes covers every sequence of outcomes.

## Who takes over from whom

The pipelined path declines before it has taken anything, or it consumes the payload; the serial
path consumes it or gives up at a chunk; a drain takes what is left. Each path leaves the
connection behind the payload except that a failure of the serial path, after the pipelined one has
declined, is answered with a second drain.
-/

namespace Lupine

open Foundation

/-! ## Staging

The buffers are kept between requests, each for one context. A pool that could not be allocated is
disabled for good. -/

/-- `LUPINE_HTOD_CHUNK_BYTES`. -/
def htodChunkBytes : ℕ := 64 * 1024 * 1024

/-- `LUPINE_SYNC_HTOD_SLOT_BYTES`. -/
def syncHtodSlotBytes : ℕ := 8 * 1024 * 1024

/-- `LUPINE_STAGING_RETAIN_BYTES`. -/
def stagingRetainBytes : ℕ := 8 * 1024 * 1024

/-- `lupine_staging`. -/
structure Staging where
  ptr : HostPtr := 0
  owned : Bool := false
  pinned : Bool := false
  deriving DecidableEq, Repr

/-- `lupine_retained_staging`. -/
structure RetainedStaging where
  ptr : HostPtr := 0
  size : ℕ := 0
  allocationContext : CUcontext := 0
  deriving DecidableEq, Repr

/-- `lupine_sync_htod_pool`, with its `LUPINE_SYNC_HTOD_SLOT_COUNT` slots. -/
structure SyncHtodPool where
  slots : List HostPtr := [0, 0]
  context : CUcontext := 0
  disabled : Bool := false
  deriving DecidableEq, Repr

/-- The fields of `lupine_staging_state` that the synchronous path uses. -/
structure StagingState where
  syncStaging : RetainedStaging := {}
  syncHtod : SyncHtodPool := {}
  deriving DecidableEq, Repr

structure HtodCalls where
  /-- `cuCtxGetCurrent` and `cuCtxGetDevice` in the handler. -/
  ctxGetCurrent : CUresult × CUcontext
  ctxGetDevice : CUresult
  /-- Whether `lupine_staging_operation` was acquired; it is not when a teardown is under way. -/
  operationAcquired : Bool
  /-- `cuMemHostGetFlags` and `cuMemHostAlloc` in `lupine_sync_htod_prepare`, by slot. -/
  memHostGetFlags : ℕ → CUresult
  memHostAlloc : ℕ → CUresult × HostPtr
  /-- `cuEventCreate` and the last `cuEventSynchronize`, by slot. -/
  eventCreate : Fin 2 → CUresult
  eventSynchronize : Fin 2 → CUresult
  /-- `cuEventSynchronize` before a slot is used again, by payload offset. -/
  slotSynchronize : ℕ → CUresult
  /-- `cuMemcpyHtoDAsync_v2`, by device address. -/
  memcpyHtoDAsync : CUdeviceptr → CUresult
  /-- `cuEventRecord` and `cuStreamSynchronize` after a chunk, by payload offset. -/
  eventRecord : ℕ → CUresult
  streamSynchronize : ℕ → CUresult
  /-- `cuCtxGetCurrent`, `cuMemAllocHost` and `malloc` in `lupine_acquire_staging`. -/
  stagingCtxGetCurrent : CUresult × CUcontext
  memAllocHost : CUresult × HostPtr
  malloc : HostPtr
  /-- `cuMemcpyHtoD_v2`, by device address. -/
  memcpyHtoD : CUdeviceptr → CUresult

variable (calls : HtodCalls)

/-- `lupine_acquire_staging`. A buffer retained for another context is let go whether or not that
context could be made current to free it. -/
def acquireStaging (bytes : ℕ) (retained : RetainedStaging) : Staging × RetainedStaging :=
  if bytes = 0 then ({}, retained)
  else if stagingRetainBytes < bytes then
    if calls.memAllocHost.1 = .success then
      ({ ptr := calls.memAllocHost.2, owned := true, pinned := true }, retained)
    else if calls.malloc ≠ 0 then ({ ptr := calls.malloc, owned := true }, retained)
    else ({}, retained)
  else if calls.stagingCtxGetCurrent.1 ≠ .success ∨ calls.stagingCtxGetCurrent.2 = 0 then
    ({}, retained)
  else
    let current := calls.stagingCtxGetCurrent.2
    let retained :=
      if retained.allocationContext ≠ current ∧ retained.ptr ≠ 0 then {} else retained
    if retained.size < bytes then
      if calls.memAllocHost.1 ≠ .success then ({}, retained)
      else
        let grown : RetainedStaging :=
          { ptr := calls.memAllocHost.2, size := bytes, allocationContext := current }
        ({ ptr := grown.ptr, pinned := true }, grown)
    else ({ ptr := retained.ptr, pinned := true }, retained)

/-- The allocation loop of `lupine_sync_htod_prepare`, from slot `index` on. -/
def allocateSlots : ℕ → List HostPtr → Bool × List HostPtr
  | _, [] => (true, [])
  | index, slot :: slots =>
    if slot = 0 then
      if (calls.memHostAlloc index).1 ≠ .success then (false, slot :: slots)
      else
        let rest := allocateSlots (index + 1) slots
        (rest.1, (calls.memHostAlloc index).2 :: rest.2)
    else
      let rest := allocateSlots (index + 1) slots
      (rest.1, slot :: rest.2)

/-- `lupine_sync_htod_prepare`. -/
def syncHtodPrepare (pool : SyncHtodPool) (context : CUcontext) : Bool × SyncHtodPool :=
  if pool.disabled ∨ context = 0 then (false, pool)
  else
    let pool := if pool.context ≠ context then { context := context } else pool
    let stale := pool.slots.zipIdx.any fun slot ↦
      slot.1 != 0 && calls.memHostGetFlags slot.2 != .success
    let pool := if stale then { context := context } else pool
    let allocated := allocateSlots calls 0 pool.slots
    (allocated.1, { pool with slots := allocated.2 })

/-! ## The copy paths

The loops go over the chunks that are left and carry the copies they have issued. -/

/-- What a copy path leaves behind: its result, the bytes still inbound, the staging state and the
copies it issued, each with its device address. -/
structure CopyOutcome where
  result : CUresult
  inbound : List UInt8
  state : StagingState
  copies : List (CUdeviceptr × List UInt8) := []

def CopyOutcome.prepend (copy : CUdeviceptr × List UInt8) (outcome : CopyOutcome) : CopyOutcome :=
  { outcome with copies := copy :: outcome.copies }

variable (lz4 : Lz4) (framed : Bool)

/-- A path that gives up with a result drains what is left of the payload. -/
def drainTo (result : CUresult) (inbound : List UInt8) (bytes : ℕ) (state : StagingState) :
    Option CopyOutcome :=
  (drainPayload lz4 framed inbound bytes).map fun rest ↦
    { result := result, inbound := rest, state := state }

/-- The loop of `lupine_copy_htod_serial`, entered with `CUDA_SUCCESS`. -/
def copyHtodSerialLoop (destination : CUdeviceptr) (bytes : ℕ) (state : StagingState)
    (offset : ℕ) (inbound : List UInt8) : Option CopyOutcome :=
  if _h : offset < bytes then
    let chunk := min (min htodChunkBytes bytes) (bytes - offset)
    match unlessNegative (readPayloadPart lz4 framed inbound chunk) with
    | none => none
    | some r =>
      let result := calls.memcpyHtoD (devAdd destination offset)
      CopyOutcome.prepend (devAdd destination offset, r.data) <$>
        if result ≠ .success then drainTo lz4 framed result r.rest (bytes - (offset + chunk)) state
        else copyHtodSerialLoop destination bytes state
          (offset + min (min htodChunkBytes bytes) (bytes - offset)) r.rest
  else some { result := .success, inbound := inbound, state := state }
termination_by bytes - offset
decreasing_by
  have : 0 < htodChunkBytes := by decide
  omega

/-- `lupine_copy_htod_serial`, entered with `CUDA_SUCCESS`; `none` is `-1`. -/
def copyHtodSerial (destination : CUdeviceptr) (bytes : ℕ) (state : StagingState)
    (inbound : List UInt8) : Option CopyOutcome :=
  let chunkBytes := min htodChunkBytes bytes
  let (staging, retained) := acquireStaging calls chunkBytes state.syncStaging
  let state := { state with syncStaging := retained }
  if chunkBytes ≠ 0 ∧ staging.ptr = 0 then
    drainTo lz4 framed .errorOutOfMemory inbound bytes state
  else copyHtodSerialLoop calls lz4 framed destination bytes state 0 inbound

/-- `lupine_wait_sync_htod_events`: the first failure among the slots in flight. -/
def waitSyncHtodEvents (inFlight : Fin 2 → Bool) : CUresult :=
  if inFlight 0 ∧ calls.eventSynchronize 0 ≠ .success then calls.eventSynchronize 0
  else if inFlight 1 then calls.eventSynchronize 1
  else .success

/-- `state.sync_htod.disabled = true`. -/
def StagingState.disable (state : StagingState) : StagingState :=
  { state with syncHtod := { state.syncHtod with disabled := true } }

/-- The loop of `lupine_copy_htod_pipelined`. The waits for the slots still in flight before an
early return, whose results are dropped, are left out. -/
def copyHtodPipelinedLoop (destination : CUdeviceptr) (bytes : ℕ) (state : StagingState)
    (offset : ℕ) (slot : Fin 2) (inFlight : Fin 2 → Bool) (inbound : List UInt8) :
    Option CopyOutcome :=
  if _h : offset < bytes then
    if inFlight slot ∧ calls.slotSynchronize offset ≠ .success then
      drainTo lz4 framed (calls.slotSynchronize offset) inbound (bytes - offset) state.disable
    else
      let chunk := min syncHtodSlotBytes (bytes - offset)
      match unlessNegative (readPayloadPart lz4 framed inbound chunk) with
      | none => none
      | some r =>
        let left := bytes - (offset + chunk)
        CopyOutcome.prepend (devAdd destination offset, r.data) <$>
          if calls.memcpyHtoDAsync (devAdd destination offset) ≠ .success then
            drainTo lz4 framed (calls.memcpyHtoDAsync (devAdd destination offset)) r.rest left
              state.disable
          else if calls.eventRecord offset ≠ .success then
            if calls.streamSynchronize offset ≠ .success then
              drainTo lz4 framed (calls.streamSynchronize offset) r.rest left state.disable
            else
              copyHtodSerial calls lz4 framed (devAdd destination (offset + chunk)) left state
                r.rest
          else
            copyHtodPipelinedLoop destination bytes state
              (offset + min syncHtodSlotBytes (bytes - offset)) (slot + 1)
              (Function.update inFlight slot true) r.rest
  else
    let result := waitSyncHtodEvents calls inFlight
    some
      { result := result
        inbound := inbound
        state := if result ≠ .success then state.disable else state }
termination_by bytes - offset
decreasing_by
  have : 0 < syncHtodSlotBytes := by decide
  omega

/-- `lupine_copy_htod_pipelined`. The flag is the return value: `true` for `1`, the payload was
consumed, `false` for `0`, the serial path should handle it; `none` is `-1`. -/
def copyHtodPipelined (destination : CUdeviceptr) (bytes : ℕ) (context : CUcontext)
    (state : StagingState) (inbound : List UInt8) : Option (Bool × CopyOutcome) :=
  let declined (state : StagingState) : Option (Bool × CopyOutcome) :=
    some (false, { result := .success, inbound := inbound, state := state })
  if bytes ≤ syncHtodSlotBytes then declined state
  else
    let (prepared, pool) := syncHtodPrepare calls state.syncHtod context
    let state := { state with syncHtod := pool }
    if !prepared then declined state
    else if calls.eventCreate 0 ≠ .success ∨ calls.eventCreate 1 ≠ .success then declined state
    else
      (copyHtodPipelinedLoop calls lz4 framed destination bytes state 0 0 (fun _ ↦ false)
        inbound).map fun outcome ↦ (true, outcome)

/-! ## The handler

The handler decides by the result whether to drain. It does not know which path has failed. -/

/-- A response of this request: the id it answers and the result it carries. -/
structure CopyResponse where
  requestId : ℤ
  result : CUresult
  deriving DecidableEq, Repr

/-- A connection as the handler sees it: the bytes still inbound, whether payloads are compressed,
the id of the request being read, whether the transport is gone, and the responses written. -/
structure CopyConn where
  inbound : List UInt8
  compressLz4 : Bool
  readId : ℤ
  closed : Bool
  responses : List CopyResponse
  deriving DecidableEq, Repr

/-- The result the handler holds before it turns to the payload. -/
def contextResult (state : Option StagingState) : CUresult :=
  if state.isNone then .errorOutOfMemory
  else if calls.ctxGetCurrent.1 ≠ .success then calls.ctxGetCurrent.1
  else if calls.ctxGetCurrent.2 = 0 then .errorInvalidContext
  else if calls.ctxGetDevice ≠ .success then calls.ctxGetDevice
  else if !calls.operationAcquired then .errorInvalidContext
  else .success

/-- The middle of `handle_manual_cuMemcpyHtoD_v2`, which takes the payload off the connection: what
is left inbound before `rpc_read_end`, and what the copy paths did. -/
def takePayload (lz4 : Lz4) (framed : Bool) (state : Option StagingState)
    (destination : CUdeviceptr) (bytes : ℕ) (inbound : List UInt8) :
    Option (List UInt8 × CopyOutcome) := do
  let result := contextResult calls state
  -- the pipelined path, when there is a context to run it in
  let (pipelined, outcome) ←
    if result = .success then
      copyHtodPipelined calls lz4 framed destination bytes calls.ctxGetCurrent.2
        (state.getD {}) inbound
    else some (false, { result := result, inbound := inbound, state := state.getD {} })
  -- the serial path, when the pipelined one declined
  let outcome ←
    if !pipelined ∧ outcome.result = .success then
      copyHtodSerial calls lz4 framed destination bytes outcome.state outcome.inbound
    else some outcome
  -- the drain of a payload that no path was given
  let inbound ←
    if !pipelined ∧ outcome.result ≠ .success then
      drainPayload lz4 framed outcome.inbound bytes
    else some outcome.inbound
  some (inbound, outcome)

/-- `handle_manual_cuMemcpyHtoD_v2`: the connection after a return of `0` and the copies issued;
`none` is `-1`. -/
def handleManualCuMemcpyHtoD_v2 (state : Option StagingState) (conn : CopyConn) :
    Option (CopyConn × List (CUdeviceptr × List UInt8)) := do
  let r ← unlessNegative (rpcRead conn.inbound 8)
  let destination := leValue r.data
  let r ← unlessNegative (rpcRead r.rest 8)
  let bytes := leValue r.data
  let framed := payloadFramed conn.compressLz4 bytes
  let (inbound, outcome) ← takePayload calls lz4 framed state destination bytes r.rest
  if conn.readId < 0 ∨ conn.closed then none
  else
    some ({ conn with
      inbound := inbound
      readId := 0
      responses := conn.responses ++ [⟨conn.readId, outcome.result⟩] }, outcome.copies)

/-! ## Every path consumes what it is given

Each path is started on the encoding of the part of the payload that is left, and ends behind it
whatever the calls return. The chunks of both loops are multiples of the block size, so that a path
that takes over from another one starts on a block boundary. -/

section Paths

variable (calls : HtodCalls) (lz4 : Lz4) (framed : Bool) (destination : CUdeviceptr)
  (state : StagingState)

theorem drainTo_encode (result : CUresult) (tail rest : List UInt8) :
    drainTo lz4 framed result (encode lz4 framed tail ++ rest) tail.length state
      = some { result := result, inbound := rest, state := state } := by
  rw [drainTo, drainPayload_encode]
  rfl

/-- A chunk copy of the serial path fails, at an offset or after it. -/
def SerialChunkFails (calls : HtodCalls) (destination : CUdeviceptr) (bytes offset : ℕ) : Prop :=
  ∃ k, offset + k * min htodChunkBytes bytes < bytes ∧
    calls.memcpyHtoD (devAdd destination (offset + k * min htodChunkBytes bytes)) ≠ .success

theorem serialChunkFails_iff {bytes offset : ℕ} (h : offset < bytes) :
    SerialChunkFails calls destination bytes offset ↔
      calls.memcpyHtoD (devAdd destination offset) ≠ .success ∨
        SerialChunkFails calls destination bytes (offset + min htodChunkBytes bytes) := by
  constructor
  · rintro ⟨k, hk, hfail⟩
    cases k with
    | zero => exact Or.inl (by simpa using hfail)
    | succ k =>
      have harg : offset + (k + 1) * min htodChunkBytes bytes
          = offset + min htodChunkBytes bytes + k * min htodChunkBytes bytes := by ring
      rw [harg] at hk hfail
      exact Or.inr ⟨k, hk, hfail⟩
  · rintro (hfail | ⟨k, hk, hfail⟩)
    · exact ⟨0, by simpa using h, by simpa using hfail⟩
    · have harg : offset + min htodChunkBytes bytes + k * min htodChunkBytes bytes
          = offset + (k + 1) * min htodChunkBytes bytes := by ring
      rw [harg] at hk hfail
      exact ⟨k + 1, hk, hfail⟩

theorem copyHtodSerialLoop_spec {bytes offset : ℕ} {tail : List UInt8}
    (h : offset + tail.length = bytes) (rest : List UInt8) :
    ∃ outcome, copyHtodSerialLoop calls lz4 framed destination bytes state offset
        (encode lz4 framed tail ++ rest) = some outcome ∧ outcome.inbound = rest ∧
      (outcome.result ≠ .success ↔ SerialChunkFails calls destination bytes offset) := by
  induction hn : tail.length using Nat.strong_induction_on generalizing offset tail with
  | _ n ih =>
    subst hn
    have hC : 0 < htodChunkBytes ∧ htodChunkBytes < 2 ^ 31 := by decide
    have hdvd : compressBlockBytes ∣ htodChunkBytes := by decide
    rw [copyHtodSerialLoop]
    by_cases hlt : offset < bytes
    · set chunk := min (min htodChunkBytes bytes) (bytes - offset) with hchunk
      have hblock : compressBlockBytes ∣ chunk ∨ chunk = tail.length := by
        rcases Nat.lt_or_ge htodChunkBytes (bytes - offset) with hmore | hlast
        · have hfull : chunk = htodChunkBytes := by omega
          exact Or.inl (hfull ▸ hdvd)
        · exact Or.inr (by omega)
      -- Each part but the last is a whole number of blocks, so it is read on its own.
      have hread := unlessNegative_readPayloadPart lz4 framed rest (by omega) (by omega) hblock
      have hleft : (tail.drop chunk).length = bytes - (offset + chunk) := by
        rw [List.length_drop]; omega
      rw [dif_pos hlt]
      dsimp only
      rw [hread]
      dsimp only
      rw [serialChunkFails_iff calls destination hlt]
      by_cases hcopy : calls.memcpyHtoD (devAdd destination offset) ≠ .success
      · rw [if_pos hcopy, ← hleft, drainTo_encode]
        exact ⟨_, rfl, rfl, fun _ ↦ Or.inl hcopy, fun _ ↦ hcopy⟩
      · have hnext : offset + chunk + (tail.drop chunk).length = bytes := by rw [hleft]; omega
        obtain ⟨outcome, hloop, hinbound, hresult⟩ :=
          ih (tail.drop chunk).length (by rw [hleft]; omega) hnext rfl
        rw [if_neg hcopy, hloop]
        refine ⟨_, rfl, hinbound, hresult.trans ?_⟩
        rw [or_iff_right hcopy]
        -- the last chunk is short, and no chunk starts behind it
        rcases Nat.lt_or_ge (offset + chunk) bytes with hmore | hend
        · rw [show chunk = min htodChunkBytes bytes by omega]
        · constructor
          · rintro ⟨k, hk, -⟩; omega
          · rintro ⟨k, hk, -⟩; omega
    · rw [dif_neg hlt, List.length_eq_zero_iff.mp (show tail.length = 0 by omega), encode_nil,
        List.nil_append]
      refine ⟨_, rfl, rfl, fun hne ↦ absurd rfl hne, ?_⟩
      rintro ⟨k, hk, -⟩
      omega

/-- The serial path fails: no staging buffer, or a chunk copy that fails. -/
def SerialFails (calls : HtodCalls) (destination : CUdeviceptr) (bytes : ℕ)
    (retained : RetainedStaging) : Prop :=
  bytes ≠ 0 ∧ ((acquireStaging calls (min htodChunkBytes bytes) retained).1.ptr = 0 ∨
    SerialChunkFails calls destination bytes 0)

theorem copyHtodSerial_spec (payload rest : List UInt8) :
    ∃ outcome, copyHtodSerial calls lz4 framed destination payload.length state
        (encode lz4 framed payload ++ rest) = some outcome ∧ outcome.inbound = rest ∧
      (outcome.result ≠ .success ↔
        SerialFails calls destination payload.length state.syncStaging) := by
  have hC : 0 < htodChunkBytes := by decide
  rw [copyHtodSerial, SerialFails]
  dsimp only
  by_cases hstaging : min htodChunkBytes payload.length ≠ 0 ∧
      (acquireStaging calls (min htodChunkBytes payload.length) state.syncStaging).1.ptr = 0
  · rw [if_pos hstaging, drainTo_encode]
    exact ⟨_, rfl, rfl, fun _ ↦ ⟨by omega, Or.inl hstaging.2⟩, fun _ ↦ by simp⟩
  · obtain ⟨outcome, hloop, hinbound, hresult⟩ := copyHtodSerialLoop_spec calls lz4 framed
      destination
      { state with
        syncStaging := (acquireStaging calls (min htodChunkBytes payload.length)
          state.syncStaging).2 }
      (Nat.zero_add payload.length) rest
    rw [if_neg hstaging]
    refine ⟨outcome, hloop, hinbound, hresult.trans ⟨fun hfail ↦ ⟨?_, Or.inr hfail⟩, ?_⟩⟩
    · obtain ⟨k, hk, -⟩ := hfail
      omega
    · rintro ⟨hbytes, hptr | hfail⟩
      · exact absurd ⟨by omega, hptr⟩ hstaging
      · exact hfail

theorem copyHtodPipelinedLoop_spec {bytes offset : ℕ} (slot : Fin 2) (inFlight : Fin 2 → Bool)
    {tail : List UInt8} (h : offset + tail.length = bytes) (rest : List UInt8) :
    ∃ outcome, copyHtodPipelinedLoop calls lz4 framed destination bytes state offset slot inFlight
        (encode lz4 framed tail ++ rest) = some outcome ∧ outcome.inbound = rest := by
  induction hn : tail.length using Nat.strong_induction_on
    generalizing offset slot inFlight tail with
  | _ n ih =>
    subst hn
    have hS : 0 < syncHtodSlotBytes ∧ syncHtodSlotBytes < 2 ^ 31 := by decide
    have hdvd : compressBlockBytes ∣ syncHtodSlotBytes := by decide
    rw [copyHtodPipelinedLoop]
    by_cases hlt : offset < bytes
    · rw [dif_pos hlt]
      by_cases hwait : inFlight slot = true ∧ calls.slotSynchronize offset ≠ .success
      · rw [if_pos hwait, show bytes - offset = tail.length by omega, drainTo_encode]
        exact ⟨_, rfl, rfl⟩
      · set chunk := min syncHtodSlotBytes (bytes - offset) with hchunk
        have hblock : compressBlockBytes ∣ chunk ∨ chunk = tail.length := by
          rcases Nat.lt_or_ge syncHtodSlotBytes (bytes - offset) with hmore | hlast
          · have hfull : chunk = syncHtodSlotBytes := by omega
            exact Or.inl (hfull ▸ hdvd)
          · exact Or.inr (by omega)
        have hread := unlessNegative_readPayloadPart lz4 framed rest (by omega) (by omega) hblock
        have hleft : (tail.drop chunk).length = bytes - (offset + chunk) := by
          rw [List.length_drop]; omega
        rw [if_neg hwait]
        dsimp only
        rw [hread]
        dsimp only
        rw [← hleft]
        by_cases hcopy : calls.memcpyHtoDAsync (devAdd destination offset) ≠ .success
        · rw [if_pos hcopy, drainTo_encode]
          exact ⟨_, rfl, rfl⟩
        rw [if_neg hcopy]
        by_cases hrecord : calls.eventRecord offset ≠ .success
        · rw [if_pos hrecord]
          by_cases hsync : calls.streamSynchronize offset ≠ .success
          · rw [if_pos hsync, drainTo_encode]
            exact ⟨_, rfl, rfl⟩
          -- The serial path takes the rest, from the chunk behind the one that was copied.
          · obtain ⟨outcome, hserial, hinbound, -⟩ := copyHtodSerial_spec calls lz4 framed
              (devAdd destination (offset + chunk)) state (tail.drop chunk) rest
            rw [if_neg hsync, hserial]
            exact ⟨_, rfl, hinbound⟩
        · have hnext : offset + chunk + (tail.drop chunk).length = bytes := by rw [hleft]; omega
          obtain ⟨outcome, hloop, hinbound⟩ :=
            ih (tail.drop chunk).length (by rw [hleft]; omega) (slot + 1)
              (Function.update inFlight slot true) hnext rfl
          rw [if_neg hrecord, hloop]
          exact ⟨_, rfl, hinbound⟩
    · rw [dif_neg hlt, List.length_eq_zero_iff.mp (show tail.length = 0 by omega), encode_nil,
        List.nil_append]
      exact ⟨_, rfl, rfl⟩

/-- The pipelined path declines, leaving the payload to the serial path. -/
def PipelineDeclines (calls : HtodCalls) (bytes : ℕ) (pool : SyncHtodPool) : Prop :=
  bytes ≤ syncHtodSlotBytes ∨ (syncHtodPrepare calls pool calls.ctxGetCurrent.2).1 = false ∨
    calls.eventCreate 0 ≠ .success ∨ calls.eventCreate 1 ≠ .success

/-- The pipelined path consumes the payload, or it declines and touches neither the payload nor the
staging buffer of the serial path. -/
theorem copyHtodPipelined_spec (payload rest : List UInt8) :
    ∃ pipelined outcome, copyHtodPipelined calls lz4 framed destination payload.length
        calls.ctxGetCurrent.2 state (encode lz4 framed payload ++ rest)
        = some (pipelined, outcome) ∧
      (pipelined = true → outcome.inbound = rest) ∧
      (pipelined = false ↔ PipelineDeclines calls payload.length state.syncHtod) ∧
      (pipelined = false → outcome.inbound = encode lz4 framed payload ++ rest ∧
        outcome.result = .success ∧ outcome.state.syncStaging = state.syncStaging) := by
  rw [copyHtodPipelined, PipelineDeclines]
  dsimp only
  split_ifs with hsmall hprepare hevent
  · exact ⟨_, _, rfl, by simp, by simp [hsmall], by simp⟩
  · exact ⟨_, _, rfl, by simp, by simpa using Or.inr (Or.inl (by simpa using hprepare)), by simp⟩
  · exact ⟨_, _, rfl, by simp, by simpa using Or.inr (Or.inr hevent), by simp⟩
  · obtain ⟨outcome, hloop, hinbound⟩ := copyHtodPipelinedLoop_spec calls lz4 framed destination
      { state with
        syncHtod := (syncHtodPrepare calls state.syncHtod calls.ctxGetCurrent.2).2 }
      0 (fun _ ↦ false) (Nat.zero_add payload.length) rest
    refine ⟨true, outcome, by rw [hloop]; rfl, fun _ ↦ hinbound,
      ⟨fun h ↦ absurd h.symm Bool.false_ne_true, ?_⟩, fun h ↦ absurd h.symm Bool.false_ne_true⟩
    rintro (h | h | h)
    · exact absurd h hsmall
    · exact absurd h (by simpa using hprepare)
    · exact absurd h hevent

end Paths

/-! ## The request

What is left inbound is the next request, or the next request less another payload. -/

/-- A request as the client writes it: the destination, the byte count and the payload. -/
structure HtodRequest where
  destination : CUdeviceptr
  payload : List UInt8
  destination_lt : destination < 256 ^ 8
  length_lt : payload.length < 256 ^ 8

def HtodRequest.encoding (request : HtodRequest) (lz4 : Lz4) (compressLz4 : Bool) : List UInt8 :=
  leBytes 8 request.destination ++ (leBytes 8 request.payload.length ++
    encode lz4 (payloadFramed compressLz4 request.payload.length) request.payload)

/-- The payload is drained twice: a context is there, the pipelined path declines, the serial path
fails and drains what it did not read, and the handler, which takes the failure for one that came
before any path was tried, drains the whole payload once more. -/
def DrainsTwice (calls : HtodCalls) (state : Option StagingState) (request : HtodRequest) : Prop :=
  contextResult calls state = .success ∧
    PipelineDeclines calls request.payload.length (state.getD {}).syncHtod ∧
    SerialFails calls request.destination request.payload.length (state.getD {}).syncStaging

section Handler

variable (calls : HtodCalls) (lz4 : Lz4) (state : Option StagingState)

theorem takePayload_spec (request : HtodRequest) (framed : Bool) (rest : List UInt8) :
    ∃ outcome,
      (¬ DrainsTwice calls state request ∧
        takePayload calls lz4 framed state request.destination request.payload.length
          (encode lz4 framed request.payload ++ rest) = some (rest, outcome)) ∨
      (DrainsTwice calls state request ∧
        takePayload calls lz4 framed state request.destination request.payload.length
          (encode lz4 framed request.payload ++ rest)
          = (drainPayload lz4 framed rest request.payload.length).map fun inbound ↦
              (inbound, outcome)) := by
  obtain ⟨pipelined, outcome, hpipelined, hconsumed, hdeclines, hdeclined⟩ :=
    copyHtodPipelined_spec calls lz4 framed request.destination (state.getD {}) request.payload
      rest
  rw [takePayload, DrainsTwice]
  -- the pipeline takes the payload, or declines before it has read any of it
  by_cases hcontext : contextResult calls state = .success
  · simp only [hcontext, if_true, hpipelined, Option.bind_eq_bind, Option.bind_some]
    cases pipelined with
    | true =>
      have hno : ¬ PipelineDeclines calls request.payload.length (state.getD {}).syncHtod :=
        fun h ↦ Bool.false_ne_true (hdeclines.mpr h).symm
      exact ⟨outcome, Or.inl ⟨fun h ↦ hno h.2.1, by simp [hconsumed rfl]⟩⟩
    -- the serial loop follows; if it fails it has drained the payload, which is then drained again
    | false =>
      obtain ⟨hinbound, hsuccess, hstaging⟩ := hdeclined rfl
      obtain ⟨serial, hserial, hleft, hresult⟩ := copyHtodSerial_spec calls lz4 framed
        request.destination outcome.state request.payload rest
      rw [hstaging] at hresult
      simp only [hsuccess, hinbound, hserial, Bool.not_false, true_and, if_true,
        Option.bind_some, hleft]
      by_cases hfails : serial.result ≠ .success
      · refine ⟨serial, Or.inr ⟨⟨hdeclines.mp rfl, hresult.mp hfails⟩, ?_⟩⟩
        rw [if_pos hfails, Option.map_eq_bind]
        rfl
      · refine ⟨serial, Or.inl ⟨fun h ↦ hfails (hresult.mpr h.2), ?_⟩⟩
        rw [if_neg hfails]
  · refine ⟨{
      result := contextResult calls state
      inbound := encode lz4 framed request.payload ++ rest
      state := state.getD {} }, Or.inl ⟨fun h ↦ hcontext h.1, ?_⟩⟩
    simp only [hcontext, if_false, Option.bind_eq_bind, Option.bind_some, Bool.not_false,
      true_and, ne_eq, not_false_eq_true, if_true, drainPayload_encode]

theorem handleManualCuMemcpyHtoD_v2_encoding (request : HtodRequest) (conn : CopyConn)
    (rest : List UInt8) :
    handleManualCuMemcpyHtoD_v2 calls lz4 state
        { conn with inbound := request.encoding lz4 conn.compressLz4 ++ rest }
      = (takePayload calls lz4 (payloadFramed conn.compressLz4 request.payload.length) state
          request.destination request.payload.length
          (encode lz4 (payloadFramed conn.compressLz4 request.payload.length) request.payload
            ++ rest)).bind fun taken ↦
          if conn.readId < 0 ∨ conn.closed then none
          else some ({ conn with
            inbound := taken.1
            readId := 0
            responses := conn.responses ++ [⟨conn.readId, taken.2.result⟩] }, taken.2.copies) := by
  rw [handleManualCuMemcpyHtoD_v2, HtodRequest.encoding, List.append_assoc, List.append_assoc,
    unlessNegative_rpcRead_leBytes 8 _ _ (by decide)]
  simp only [Option.bind_eq_bind, Option.bind_some]
  rw [unlessNegative_rpcRead_leBytes 8 _ _ (by decide)]
  simp only [Option.bind_some]
  rw [leValue_leBytes request.destination_lt, leValue_leBytes request.length_lt]

/-- **The next request is decoded from its first byte unless the payload is drained twice.** For
every request, every connection that can still answer and every outcome of the calls: the handler,
whenever it returns `0`, has consumed exactly the request, whatever follows it, and written exactly
one response, if and only if the payload is not drained twice. -/
theorem htod_consumes_request_iff (calls : HtodCalls) (lz4 : Lz4) (state : Option StagingState)
    (conn : CopyConn) (request : HtodRequest) :
    (∀ rest conn' copies,
      handleManualCuMemcpyHtoD_v2 calls lz4 state
          { conn with inbound := request.encoding lz4 conn.compressLz4 ++ rest }
        = some (conn', copies) →
      conn'.inbound = rest ∧ ∃ result, conn'.responses = conn.responses ++ [⟨conn.readId, result⟩])
      ↔ ¬ (DrainsTwice calls state request ∧ 0 ≤ conn.readId ∧ conn.closed = false) := by
  set framed := payloadFramed conn.compressLz4 request.payload.length with hframed
  constructor
  · rintro hholds ⟨htwice, hid, hopen⟩
    -- the bytes of another payload of the same length, right behind the request, are lost
    obtain ⟨outcome, ⟨hnot, -⟩ | ⟨-, htake⟩⟩ := takePayload_spec calls lz4 state request framed
      (encode lz4 framed request.payload)
    · exact hnot htwice
    · have hdrain := drainPayload_encode lz4 framed request.payload []
      rw [List.append_nil] at hdrain
      rw [hdrain, Option.map_some] at htake
      have hreturn := handleManualCuMemcpyHtoD_v2_encoding calls lz4 state request conn
        (encode lz4 framed request.payload)
      rw [htake, Option.bind_some, if_neg (by simp [hopen, hid])] at hreturn
      have hlost : [] = encode lz4 framed request.payload := (hholds _ _ _ hreturn).1
      have hne : request.payload ≠ [] := by
        rintro hnil
        exact htwice.2.2.1 (by rw [hnil, List.length_nil])
      exact encode_ne_nil lz4 framed hne hlost.symm
  · intro honce rest conn' copies hreturn
    rw [handleManualCuMemcpyHtoD_v2_encoding] at hreturn
    obtain ⟨taken, htaken, hreturn⟩ := Option.bind_eq_some_iff.mp hreturn
    split_ifs at hreturn with hgone
    rw [not_or, not_lt, Bool.not_eq_true] at hgone
    obtain ⟨rfl, -⟩ := Prod.mk.inj (Option.some.inj hreturn)
    obtain ⟨outcome, ⟨-, htake⟩ | ⟨htwice, -⟩⟩ := takePayload_spec calls lz4 state request framed
      rest
    · rw [htake] at htaken
      obtain rfl := Option.some.inj htaken
      exact ⟨rfl, outcome.result, rfl⟩
    · exact absurd ⟨htwice, hgone⟩ honce

/-- Calls that all succeed, except that the device rejects the copy. -/
def rejectedCopyCalls : HtodCalls where
  ctxGetCurrent := (.success, 1)
  ctxGetDevice := .success
  operationAcquired := true
  memHostGetFlags _ := .success
  memHostAlloc _ := (.success, 1)
  eventCreate _ := .success
  eventSynchronize _ := .success
  slotSynchronize _ := .success
  memcpyHtoDAsync _ := .success
  eventRecord _ := .success
  streamSynchronize _ := .success
  stagingCtxGetCurrent := (.success, 1)
  memAllocHost := (.success, 1)
  malloc := 1
  memcpyHtoD _ := .errorInvalidValue

/-- One byte to copy, the copy rejected, and the first byte of the next request gone. -/
theorem htod_loses_next_byte :
    handleManualCuMemcpyHtoD_v2 rejectedCopyCalls literalLz4 (some {})
        { inbound := leBytes 8 4096 ++ (leBytes 8 1 ++ [5]) ++ [7]
          compressLz4 := false, readId := 1, closed := false, responses := [] }
      = some ({ inbound := [], compressLz4 := false, readId := 0, closed := false
                responses := [⟨1, .errorInvalidValue⟩] }, [(4096, [5])]) := by
  decide +kernel

end Handler

end Lupine
