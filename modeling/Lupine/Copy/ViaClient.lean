import Lupine.Foundation.Blocks
import Lupine.Foundation.LittleEndian
import Lupine.Foundation.Patches
import Lupine.Foundation.PendingWork
import Lupine.Mapped.LaunchArguments

/-!
# Copies between two servers

Two servers do not reach each other, so the client carries the bytes of a copy between them: it
reads a chunk from the one, hands it to the other, and keeps it in one staging buffer meanwhile.

## What the stream orders

The read is a synchronous copy. It waits for the NULL stream of the server it reads from, and for
the streams that the NULL stream waits for. The write of an asynchronous copy is put on the stream
of the caller, which is known by its handle, at the server it writes to. There the handle of
another server's stream means nothing and the write is dropped, and a handle of the NULL stream
means a stream that the caller does not wait for. What is left is an asynchronous copy whose stream
belongs to the server that is written.

## What is written

The write of a short chunk goes through the relocation of mapped pointers, as a table of pointers
would: bytes that happen to spell the address of a mapped allocation are replaced.

## The state between two chunks

A chunk is read into the staging buffer, and handed on before the next one is read. Between two
chunks nothing points at the buffer, and the drivers are where they were but for the writes and for
the work that they have got to. The read waits for what is pending at the source if the NULL stream
does; the write comes after all that is pending at the destination.
-/

open Foundation

namespace Lupine

/-! ## Relocation

The scan looks at whole words from the start of the payload on. Outside of them nothing is
replaced. -/

/-- The word that the scan of the mapped allocations puts in the place of one. -/
def relocateWord : List LaunchMapping → CUdeviceptr → CUdeviceptr
  | [], word => word
  | m :: rest, word =>
    match m.hostPtrInMapping word with
    | some translated => translated
    | none => if m.devicePtrInMapping word then word else relocateWord rest word

/-- One aligned word of a payload; what is left behind the last whole word is not looked at. -/
def relocateBlock (snapshots : List LaunchMapping) (block : List UInt8) : List UInt8 :=
  if block.length = 8 then leBytes 8 (relocateWord snapshots (leValue block)) else block

/-- `lupine_relocate_mapped_host_pointers`, as far as the payload. -/
def relocateMappedHostPointers (snapshots : List LaunchMapping) (data : List UInt8) : List UInt8 :=
  encodeBlocks 8 (relocateBlock snapshots) data

/-- No aligned word of the payload is the address of a byte of a mapped allocation, or it is one
that the allocation has at the same address. -/
def Unmapped (snapshots : List LaunchMapping) (data : List UInt8) : Prop :=
  ∀ word ∈ blocks 8 data, word.length = 8 →
    relocateWord snapshots (leValue word) = leValue word

theorem relocateWord_lt {snapshots : List LaunchMapping} {word : CUdeviceptr} (h : word < 2 ^ 64) :
    relocateWord snapshots word < 2 ^ 64 := by
  induction snapshots with
  | nil => exact h
  | cons m rest ih =>
    rw [relocateWord]
    cases htranslated : m.hostPtrInMapping word with
    | none =>
      dsimp only
      split_ifs
      · exact h
      · exact ih
    | some translated =>
      rw [LaunchMapping.hostPtrInMapping, Option.ite_none_left_eq_some] at htranslated
      obtain ⟨-, htranslated⟩ := htranslated
      rw [← Option.some_injective _ htranslated]
      exact Nat.mod_lt _ (by decide)

theorem length_relocateBlock (snapshots : List LaunchMapping) (block : List UInt8) :
    (relocateBlock snapshots block).length = block.length := by
  rw [relocateBlock]
  split_ifs with h
  · rw [length_leBytes, h]
  · rfl

theorem relocateBlock_eq_self_iff {snapshots : List LaunchMapping} {block : List UInt8} :
    relocateBlock snapshots block = block ↔
      (block.length = 8 → relocateWord snapshots (leValue block) = leValue block) := by
  rw [relocateBlock]
  split_ifs with h
  · have hlt : relocateWord snapshots (leValue block) < 256 ^ 8 :=
      relocateWord_lt (by have hvalue := leValue_lt block; rwa [h] at hvalue)
    constructor
    · intro heq _
      rw [← leValue_leBytes hlt, heq]
    · intro heq
      have hback := leBytes_leValue block
      rw [heq h, ← h, hback]
  · exact iff_of_true rfl fun hlength ↦ absurd hlength h

theorem length_relocate (snapshots : List LaunchMapping) (data : List UInt8) :
    (relocateMappedHostPointers snapshots data).length = data.length :=
  length_encodeBlocks (by decide) (length_relocateBlock snapshots) data

/-- **Relocation leaves exactly the payloads without mapped pointers as they are.** -/
theorem relocate_eq_self_iff {snapshots : List LaunchMapping} {data : List UInt8} :
    relocateMappedHostPointers snapshots data = data ↔ Unmapped snapshots data := by
  rw [relocateMappedHostPointers,
    encodeBlocks_eq_self_iff (by decide) (length_relocateBlock snapshots)]
  exact forall₂_congr fun _ _ ↦ relocateBlock_eq_self_iff

/-! ## The call

The drivers have their memory and the work pending on one stream, the one of the handle. They may
come further at any time, which is given for each point of the call. -/

/-- `chunk_size`. -/
def viaClientChunkBytes : ℕ := 16 * 1024 * 1024

/-- `embedded_pointer_scan_limit`. -/
def embeddedPointerScanLimit : ℕ := 2 ^ 20

/-- The NULL stream, `CU_STREAM_LEGACY` and `CU_STREAM_PER_THREAD`, which every driver has. -/
def IsDefaultStream (stream : CUstream) : Prop := stream = 0 ∨ stream = 1 ∨ stream = 2

instance (stream : CUstream) : Decidable (IsDefaultStream stream) :=
  inferInstanceAs (Decidable (_ ∨ _))

/-- A call of `lupine_cuMemcpyDtoD_via_client`, and what the client's tables say about its pointers
and its stream. Each range belongs to one route, and the two routes differ. -/
structure ViaClientCopy where
  dstDevice : CUdeviceptr
  srcDevice : CUdeviceptr
  byteCount : ℕ
  hStream : CUstream
  async : Bool
  /-- The identity of `lupine_route_for_deviceptr`. -/
  routeOf : CUdeviceptr → ℤ
  /-- The identity of the route that a call on the stream takes. -/
  streamRoute : ℤ
  /-- The NULL stream waits for the stream. -/
  blocking : Bool
  /-- `lupine_mapped_host_snapshots`. -/
  snapshots : List LaunchMapping
  cross : routeOf dstDevice ≠ routeOf srcDevice
  src_route : ∀ i < byteCount, routeOf (srcDevice + i) = routeOf srcDevice
  dst_route : ∀ i < byteCount, routeOf (dstDevice + i) = routeOf dstDevice
  src_le : srcDevice + byteCount ≤ 2 ^ 64
  dst_le : dstDevice + byteCount ≤ 2 ^ 64
  /-- The synchronous calls pass the NULL stream. -/
  stream_of_sync : async = false → hStream = 0
  blocking_of_default : IsDefaultStream hStream → blocking = true

/-- An entry of the write queue: it points at the staging buffer, or at a vector of its own. -/
inductive QueuedPayload where
  | staging (size : ℕ)
  | relocated (bytes : List UInt8)
  deriving DecidableEq, Repr

/-- A driver: its memory, and the work that is pending on the stream of the call's handle. -/
abbrev StreamDriver := Pending (Memory UInt8)

/-- The drivers by the identity of their routes, and the locals of the call. -/
structure ViaClientState where
  drivers : ℤ → StreamDriver
  staging : List UInt8
  /-- The payload of a message that has not ended. -/
  queued : Option QueuedPayload := none
  /-- The staging buffer was filled while a queued payload pointed at it. -/
  overwritten : Bool := false
  /-- Offset and size of the chunks that were read. -/
  chunks : List (ℕ × ℕ) := []

/-- What goes on meanwhile, and what the calls for the chunk at an offset answer. -/
structure ViaClientCalls where
  /-- How much of the pending work of a driver is done before the chunk at an offset is read. -/
  ran : ℕ → ℤ → ℕ
  read : ℕ → CUresult
  flush : ℕ → CUresult
  write : ℕ → CUresult

/-- `CUDA_ERROR_INVALID_HANDLE`, from the local driver. -/
def invalidHandle : CUresult := .error 400

structure ViaClientCalls.Succeed (calls : ViaClientCalls) : Prop where
  read : ∀ offset, calls.read offset = .success
  flush : ∀ offset, calls.flush offset = .success
  write : ∀ offset, calls.write offset = .success

def QueuedPayload.pointsAtStaging : QueuedPayload → Bool
  | .staging _ => true
  | .relocated _ => false

namespace ViaClientState

variable (st : ViaClientState)

def proceed (ran : ℤ → ℕ) : ViaClientState :=
  { st with drivers := fun route ↦ (st.drivers route).advance (ran route) }

def setDriver (route : ℤ) (driver : StreamDriver) : ViaClientState :=
  { st with drivers := Function.update st.drivers route driver }

@[simp] theorem drivers_setDriver_self (route : ℤ) (driver : StreamDriver) :
    (st.setDriver route driver).drivers route = driver := Function.update_self ..

theorem drivers_setDriver_of_ne {route other : ℤ} (h : other ≠ route) (driver : StreamDriver) :
    (st.setDriver route driver).drivers other = st.drivers other := Function.update_of_ne h ..

/-- `rpc_write_payload`: the entry points at the bytes. -/
def rpcWritePayload (payload : QueuedPayload) : ViaClientState := { st with queued := some payload }

def queuedBytes : List UInt8 :=
  match st.queued with
  | none => []
  | some (.staging size) => st.staging.take size
  | some (.relocated bytes) => bytes

/-- `rpc_write_end_deferred`: the bytes have been copied or sent, and nothing points at them. -/
def rpcWriteEndDeferred : ViaClientState := { st with queued := none }

end ViaClientState

namespace ViaClientCopy

variable (copy : ViaClientCopy) (calls : ViaClientCalls)

def srcRoute : ℤ := copy.routeOf copy.srcDevice

def dstRoute : ℤ := copy.routeOf copy.dstDevice

/-- The driver of a route has a stream of the handle, which only it has. -/
def Knows (route : ℤ) : Prop := route = copy.streamRoute ∨ IsDefaultStream copy.hStream

instance (route : ℤ) : Decidable (copy.Knows route) := inferInstanceAs (Decidable (_ ∨ _))

/-- A driver at the start of a synchronous copy, which is one on the NULL stream. -/
def waitLegacy (driver : StreamDriver) : StreamDriver :=
  if copy.blocking then driver.settle else driver

/-- `staging.size()`. -/
def stagingSize : ℕ := min copy.byteCount viaClientChunkBytes

/-- `chunk`. -/
def chunkAt (offset : ℕ) : ℕ := min copy.stagingSize (copy.byteCount - offset)

/-- `cuMemcpyDtoH_v2` into the staging buffer. -/
def cuMemcpyDtoH (st : ViaClientState) (offset chunk : ℕ) : CUresult × ViaClientState :=
  if calls.read offset = .success then
    let src := devAdd copy.srcDevice offset
    let driver := copy.waitLegacy (st.drivers (copy.routeOf src))
    (.success,
      { st.setDriver (copy.routeOf src) driver with
        staging := readRun driver.now src chunk ++ st.staging.drop chunk
        overwritten := st.overwritten || st.queued.any QueuedPayload.pointsAtStaging
        chunks := st.chunks ++ [(offset, chunk)] })
  else (calls.read offset, st)

/-- `cuMemcpyHtoD_v2` from the staging buffer. -/
def cuMemcpyHtoD (st : ViaClientState) (offset chunk : ℕ) : CUresult × ViaClientState :=
  if calls.write offset = .success then
    let dst := devAdd copy.dstDevice offset
    let driver := copy.waitLegacy (st.drivers (copy.routeOf dst))
    (.success, st.setDriver (copy.routeOf dst)
      (driver.change fun mem ↦ Patch.apply mem ⟨dst, st.staging.take chunk⟩))
  else (calls.write offset, st)

/-- A copy that is put on the stream at a driver. -/
def enqueueCopy (st : ViaClientState) (dst : CUdeviceptr) (bytes : List UInt8) : ViaClientState :=
  st.setDriver (copy.routeOf dst)
    ((st.drivers (copy.routeOf dst)).enqueue fun mem ↦ Patch.apply mem ⟨dst, bytes⟩)

/-- What `cuMemcpyHtoDAsync_v2` sends. -/
def payloadOf (staging : List UInt8) (chunk : ℕ) : QueuedPayload :=
  if chunk ≤ embeddedPointerScanLimit then
    .relocated (relocateMappedHostPointers copy.snapshots (staging.take chunk))
  else .staging chunk

/-- `cuMemcpyHtoDAsync_v2` from the staging buffer, with a stream that is not capturing. -/
def cuMemcpyHtoDAsync (st : ViaClientState) (offset chunk : ℕ) : CUresult × ViaClientState :=
  let dst := devAdd copy.dstDevice offset
  if copy.routeOf dst = -1 then
    -- the driver has taken pageable memory over when the call returns
    if ¬copy.Knows (-1) then (invalidHandle, st)
    else if calls.write offset = .success then
      (.success, copy.enqueueCopy st dst (st.staging.take chunk))
    else (calls.write offset, st)
  else if chunk ≤ embeddedPointerScanLimit ∧ calls.flush offset ≠ .success then
    (calls.flush offset, st)
  else if calls.write offset = .success then
    let st := st.rpcWritePayload (copy.payloadOf st.staging chunk)
    let bytes := st.queuedBytes
    let st := st.rpcWriteEndDeferred
    -- the handler drops what the driver refuses, and the call has returned by then
    (.success, if copy.Knows (copy.routeOf dst) then copy.enqueueCopy st dst bytes else st)
  else (calls.write offset, st)

def copyChunk (st : ViaClientState) (offset : ℕ) : CUresult × ViaClientState :=
  let chunk := copy.chunkAt offset
  match copy.cuMemcpyDtoH calls (st.proceed (calls.ran offset)) offset chunk with
  | (.success, st) =>
    if copy.async then copy.cuMemcpyHtoDAsync calls st offset chunk
    else copy.cuMemcpyHtoD calls st offset chunk
  | failed => failed

theorem chunkAt_pos {offset : ℕ} (h : offset < copy.byteCount) : 0 < copy.chunkAt offset := by
  rw [chunkAt, stagingSize, viaClientChunkBytes]
  omega

def copyChunks (offset : ℕ) (st : ViaClientState) : CUresult × ViaClientState :=
  if _h : offset < copy.byteCount then
    match copy.copyChunk calls st offset with
    | (.success, st) => copyChunks (offset + copy.chunkAt offset) st
    | failed => failed
  else (.success, st)
termination_by copy.byteCount - offset
decreasing_by
  have hpos := copy.chunkAt_pos _h
  omega

/-- `lupine_cuMemcpyDtoD_via_client`. -/
def viaClient (drivers : ℤ → StreamDriver) : CUresult × ViaClientState :=
  if copy.byteCount = 0 then (.success, { drivers, staging := [] })
  else copy.copyChunks calls 0 { drivers, staging := List.replicate copy.stagingSize 0 }

/-- `cuStreamSynchronize`: the drivers after a call with the same handle. -/
def streamSynchronize (drivers : ℤ → StreamDriver) : ℤ → StreamDriver :=
  Function.update drivers copy.streamRoute (drivers copy.streamRoute).settle

/-! ## What the claim is about -/

/-- Consecutive chunks of full size up to the last, from an offset on to the end. -/
def Tiles : ℕ → List (ℕ × ℕ) → Prop
  | offset, [] => offset = copy.byteCount
  | offset, (start, size) :: rest =>
    start = offset ∧ size = min viaClientChunkBytes (copy.byteCount - offset) ∧ 0 < size ∧
      Tiles (offset + size) rest

/-- The drivers before the call. A driver without the stream has no work on it. -/
structure Earlier where
  drivers : ℤ → StreamDriver
  idle : ∀ route, ¬copy.Knows route → (drivers route).work = []

/-- What the call and a synchronisation of the stream are to leave. -/
structure Carries (source : Memory UInt8) (outcome : CUresult × ViaClientState) : Prop where
  result : outcome.1 = .success
  copied : readRun (copy.streamSynchronize outcome.2.drivers copy.dstRoute).now copy.dstDevice
    copy.byteCount = readRun source copy.srcDevice copy.byteCount
  chunks : copy.Tiles 0 outcome.2.chunks
  staging : outcome.2.overwritten = false

/-- From every state in which the memory of the source's driver will be `source` once the work on
the stream is done, and however far the drivers come meanwhile, the copy carries it over. -/
def Delivers (source : Memory UInt8) : Prop :=
  ∀ (earlier : copy.Earlier) (calls : ViaClientCalls), calls.Succeed →
    (earlier.drivers copy.srcRoute).eventually = source →
      copy.Carries source (copy.viaClient calls earlier.drivers)

/-- The write is waited for, or it is put on the stream of the caller. -/
def InStreamOrder : Prop := copy.async = false ∨ copy.streamRoute = copy.dstRoute

/-- No short chunk of an asynchronous copy to a server has the address of a mapped allocation. -/
def SentAsRead (source : Memory UInt8) : Prop :=
  copy.async = false ∨ copy.dstRoute = -1 ∨
    ∀ chunk ∈ blocks viaClientChunkBytes (readRun source copy.srcDevice copy.byteCount),
      chunk.length ≤ embeddedPointerScanLimit → Unmapped copy.snapshots chunk

variable {copy calls} {source : Memory UInt8} {st : ViaClientState} {offset : ℕ}

/-! ## The bytes that are written

What is written differs from what is read exactly where a short chunk is relocated. -/

def passedOn (copy : ViaClientCopy) (data : List UInt8) : List UInt8 :=
  if copy.async = true ∧ copy.dstRoute ≠ -1 ∧ data.length ≤ embeddedPointerScanLimit then
    relocateMappedHostPointers copy.snapshots data
  else data

variable (copy) in
theorem length_passedOn (data : List UInt8) : (copy.passedOn data).length = data.length := by
  rw [passedOn]
  split_ifs
  · exact length_relocate _ _
  · rfl

theorem passedOn_eq_self_iff {data : List UInt8} :
    copy.passedOn data = data ↔ copy.async = false ∨ copy.dstRoute = -1 ∨
      (data.length ≤ embeddedPointerScanLimit → Unmapped copy.snapshots data) := by
  rw [passedOn]
  split_ifs with h
  · obtain ⟨hasync, hroute, hlength⟩ := h
    simp [relocate_eq_self_iff, hasync, hroute, hlength]
  · refine iff_of_true rfl ?_
    rw [not_and, not_and] at h
    cases hasync : copy.async with
    | false => exact Or.inl rfl
    | true =>
      rcases eq_or_ne copy.dstRoute (-1) with hroute | hroute
      · exact Or.inr (Or.inl hroute)
      · exact Or.inr (Or.inr fun hlength ↦ absurd hlength (h hasync hroute))

def written (copy : ViaClientCopy) (source : Memory UInt8) : List UInt8 :=
  encodeBlocks viaClientChunkBytes copy.passedOn (readRun source copy.srcDevice copy.byteCount)

theorem viaClientChunkBytes_pos : 0 < viaClientChunkBytes := by decide

/-- **What is written is what was read.** -/
theorem written_eq_iff :
    copy.written source = readRun source copy.srcDevice copy.byteCount ↔
      copy.SentAsRead source := by
  rw [written, encodeBlocks_eq_self_iff viaClientChunkBytes_pos copy.length_passedOn, SentAsRead]
  simp only [passedOn_eq_self_iff]
  constructor
  · intro h
    by_cases hasync : copy.async = false
    · exact Or.inl hasync
    · by_cases hroute : copy.dstRoute = -1
      · exact Or.inr (Or.inl hroute)
      · exact Or.inr (Or.inr fun chunk hchunk ↦
          ((h chunk hchunk).resolve_left hasync).resolve_left hroute)
  · rintro (hasync | hroute | h) chunk hchunk
    · exact Or.inl hasync
    · exact Or.inr (Or.inl hroute)
    · exact Or.inr (Or.inr (h chunk hchunk))

/-! ## One chunk

Writes go to a driver that knows the stream, and not to the one that is read. -/

variable (copy) in
theorem chunkAt_eq (offset : ℕ) :
    copy.chunkAt offset = min viaClientChunkBytes (copy.byteCount - offset) := by
  rw [chunkAt, stagingSize]
  omega

theorem srcRoute_ne : copy.srcRoute ≠ copy.dstRoute := copy.cross.symm

theorem devAdd_src (h : offset < copy.byteCount) :
    devAdd copy.srcDevice offset = copy.srcDevice + offset := by
  exact Nat.mod_eq_of_lt ((Nat.add_lt_add_left h _).trans_le copy.src_le)

theorem devAdd_dst (h : offset < copy.byteCount) :
    devAdd copy.dstDevice offset = copy.dstDevice + offset := by
  exact Nat.mod_eq_of_lt ((Nat.add_lt_add_left h _).trans_le copy.dst_le)

theorem routeOf_src (h : offset < copy.byteCount) :
    copy.routeOf (copy.srcDevice + offset) = copy.srcRoute := copy.src_route offset h

theorem routeOf_dst (h : offset < copy.byteCount) :
    copy.routeOf (copy.dstDevice + offset) = copy.dstRoute := copy.dst_route offset h

@[simp] theorem eventually_waitLegacy (driver : StreamDriver) :
    (copy.waitLegacy driver).eventually = driver.eventually := by
  rw [waitLegacy]
  split_ifs
  · exact Pending.eventually_settle
  · rfl

/-- Between the chunks: nothing points at the staging buffer, and only the writes are new. -/
structure Between (copy : ViaClientCopy) (source : Memory UInt8) (st : ViaClientState) : Prop where
  source : (st.drivers copy.srcRoute).eventually = source
  idle : ∀ route, ¬copy.Knows route → (st.drivers route).work = []
  length : st.staging.length = copy.stagingSize
  queued : st.queued = none
  overwritten : st.overwritten = false

/-- The NULL stream waits for what is pending at the source, or nothing is. -/
theorem InStreamOrder.waits (h : copy.InStreamOrder) :
    copy.blocking = true ∨ ¬copy.Knows copy.srcRoute := by
  by_cases hdefault : IsDefaultStream copy.hStream
  · exact Or.inl (copy.blocking_of_default hdefault)
  · rcases h with hsync | hroute
    · exact absurd (Or.inl (copy.stream_of_sync hsync)) hdefault
    · refine Or.inr fun hknows ↦ ?_
      rcases hknows with hknows | hknows
      · exact copy.cross (hroute.symm.trans hknows.symm)
      · exact hdefault hknows

theorem InStreamOrder.knows_dst (h : copy.InStreamOrder) : copy.Knows copy.dstRoute := by
  rcases h with hsync | hroute
  · exact Or.inr (Or.inl (copy.stream_of_sync hsync))
  · exact Or.inl hroute.symm

theorem cuMemcpyHtoDAsync_eq (horder : copy.InStreamOrder) (hok : calls.Succeed)
    (hlt : offset < copy.byteCount) {chunk : ℕ} (hlength : (st.staging.take chunk).length = chunk)
    (hasync : copy.async = true) (hqueued : st.queued = none) :
    copy.cuMemcpyHtoDAsync calls st offset chunk =
      (.success, st.setDriver copy.dstRoute ((st.drivers copy.dstRoute).enqueue fun mem ↦
        Patch.apply mem ⟨copy.dstDevice + offset, copy.passedOn (st.staging.take chunk)⟩)) := by
  have hflush : ¬(chunk ≤ embeddedPointerScanLimit ∧ calls.flush offset ≠ .success) :=
    fun hfailed ↦ hfailed.2 (hok.flush offset)
  simp only [cuMemcpyHtoDAsync, devAdd_dst hlt, routeOf_dst hlt, if_pos (hok.write offset),
    if_neg hflush, if_pos horder.knows_dst]
  split_ifs with hlocal hknows
  · rw [passedOn_eq_self_iff.mpr (Or.inr (Or.inl hlocal)), enqueueCopy, routeOf_dst hlt]
  · exact absurd (hlocal ▸ horder.knows_dst) hknows
  · have hbytes : (st.rpcWritePayload (copy.payloadOf st.staging chunk)).queuedBytes =
        copy.passedOn (st.staging.take chunk) := by
      rw [passedOn, hlength, payloadOf]
      split_ifs with hshort hall hall
      · rfl
      · exact absurd ⟨hasync, hlocal, hshort⟩ hall
      · exact absurd hall.2.2 hshort
      · rfl
    -- the message has ended, so that the state is the one before it
    have hended :
        (st.rpcWritePayload (copy.payloadOf st.staging chunk)).rpcWriteEndDeferred = st := by
      cases st
      subst hqueued
      rfl
    rw [hbytes, hended, enqueueCopy, routeOf_dst hlt]

namespace Between

theorem proceed (h : copy.Between source st) (ran : ℤ → ℕ) :
    copy.Between source (st.proceed ran) where
  source := (Pending.eventually_advance _).trans h.source
  idle := fun route hroute ↦ Pending.work_advance_of_nil (h.idle route hroute) _
  length := h.length
  queued := h.queued
  overwritten := h.overwritten

theorem setDst (h : copy.Between source st) (horder : copy.InStreamOrder) (driver : StreamDriver) :
    copy.Between source (st.setDriver copy.dstRoute driver) where
  source := by
    rw [st.drivers_setDriver_of_ne srcRoute_ne]
    exact h.source
  idle := fun route hroute ↦ by
    have hne : route ≠ copy.dstRoute := fun heq ↦ hroute (heq ▸ horder.knows_dst)
    rw [st.drivers_setDriver_of_ne hne]
    exact h.idle route hroute
  length := h.length
  queued := h.queued
  overwritten := h.overwritten

theorem now_waitLegacy (h : copy.Between source st) (horder : copy.InStreamOrder) :
    (copy.waitLegacy (st.drivers copy.srcRoute)).now = source := by
  rw [← h.source, waitLegacy]
  split_ifs with hblocking
  · exact Pending.now_settle
  · have hidle := h.idle _ (horder.waits.resolve_left hblocking)
    exact (Pending.eventually_of_nil hidle).symm

/-- **The read.** The staging buffer has the bytes of the source after the work on the stream. -/
theorem cuMemcpyDtoH (h : copy.Between source st) (horder : copy.InStreamOrder)
    (hread : calls.read offset = .success) (hlt : offset < copy.byteCount) {chunk : ℕ}
    (hchunk : chunk ≤ copy.stagingSize) :
    ∃ st', copy.cuMemcpyDtoH calls st offset chunk = (.success, st') ∧ copy.Between source st' ∧
      st'.staging.take chunk = readRun source (copy.srcDevice + offset) chunk ∧
      st'.drivers copy.dstRoute = st.drivers copy.dstRoute ∧
      st'.chunks = st.chunks ++ [(offset, chunk)] := by
  simp only [ViaClientCopy.cuMemcpyDtoH, if_pos hread, devAdd_src hlt, routeOf_src hlt,
    h.now_waitLegacy horder]
  refine ⟨_, rfl, ⟨?_, ?_, ?_, h.queued, ?_⟩, ?_, st.drivers_setDriver_of_ne copy.cross _, rfl⟩
  · rw [st.drivers_setDriver_self, eventually_waitLegacy]
    exact h.source
  · intro route hroute
    rcases eq_or_ne route copy.srcRoute with rfl | hne
    · rw [st.drivers_setDriver_self, waitLegacy]
      split_ifs
      · exact Pending.work_settle
      · exact h.idle _ hroute
    · rw [st.drivers_setDriver_of_ne hne]
      exact h.idle route hroute
  · rw [List.length_append, length_readRun, List.length_drop, h.length,
      Nat.add_sub_cancel' hchunk]
  · rw [h.overwritten, h.queued]
    rfl
  · exact List.take_left' (length_readRun _ _ _)

/-- **The write.** It comes after all that is pending at the destination. -/
theorem handOn (h : copy.Between source st) (horder : copy.InStreamOrder) (hok : calls.Succeed)
    (hlt : offset < copy.byteCount) {chunk : ℕ} (hchunk : chunk ≤ copy.stagingSize) :
    ∃ driver : StreamDriver,
      (if copy.async then copy.cuMemcpyHtoDAsync calls st offset chunk
        else copy.cuMemcpyHtoD calls st offset chunk) =
          (.success, st.setDriver copy.dstRoute driver) ∧
      driver.eventually = Patch.apply (st.drivers copy.dstRoute).eventually
        ⟨copy.dstDevice + offset, copy.passedOn (st.staging.take chunk)⟩ ∧
      (copy.async = false → driver.work = []) := by
  have hlength : (st.staging.take chunk).length = chunk := by
    rw [List.length_take, h.length, Nat.min_eq_left hchunk]
  cases hasync : copy.async with
  | false =>
    have hblocking : copy.blocking = true :=
      copy.blocking_of_default (Or.inl (copy.stream_of_sync hasync))
    have hself : copy.passedOn (st.staging.take chunk) = st.staging.take chunk :=
      passedOn_eq_self_iff.mpr (Or.inl hasync)
    simp only [Bool.false_eq_true, if_false, ViaClientCopy.cuMemcpyHtoD, if_pos (hok.write offset),
      devAdd_dst hlt, routeOf_dst hlt, waitLegacy, if_pos hblocking, hself]
    exact ⟨_, rfl, Pending.eventually_change Pending.work_settle _, fun _ ↦ rfl⟩
  | true =>
    refine ⟨(st.drivers copy.dstRoute).enqueue fun mem ↦ Patch.apply mem
      ⟨copy.dstDevice + offset, copy.passedOn (st.staging.take chunk)⟩, ?_,
      Pending.eventually_enqueue _, nofun⟩
    rw [if_pos rfl, cuMemcpyHtoDAsync_eq horder hok hlt hlength hasync h.queued]

/-- **A chunk.** -/
theorem copyChunk (h : copy.Between source st) (horder : copy.InStreamOrder) (hok : calls.Succeed)
    (hlt : offset < copy.byteCount) :
    ∃ st', copy.copyChunk calls st offset = (.success, st') ∧ copy.Between source st' ∧
      (st'.drivers copy.dstRoute).eventually = Patch.apply (st.drivers copy.dstRoute).eventually
        ⟨copy.dstDevice + offset,
          copy.passedOn (readRun source (copy.srcDevice + offset) (copy.chunkAt offset))⟩ ∧
      (copy.async = false → (st'.drivers copy.dstRoute).work = []) ∧
      st'.chunks = st.chunks ++ [(offset, copy.chunkAt offset)] := by
  have hchunk : copy.chunkAt offset ≤ copy.stagingSize := Nat.min_le_left _ _
  obtain ⟨st₁, hread, h₁, hstaging, hdst, hchunks⟩ :=
    (h.proceed (calls.ran offset)).cuMemcpyDtoH horder (hok.read offset) hlt hchunk
  obtain ⟨driver, hwrite, heventually, hwork⟩ := h₁.handOn horder hok hlt hchunk
  refine ⟨st₁.setDriver copy.dstRoute driver, ?_, h₁.setDst horder driver, ?_, ?_, hchunks⟩
  · simp only [ViaClientCopy.copyChunk, hread]
    exact hwrite
  · rw [st₁.drivers_setDriver_self, heventually, hdst, hstaging]
    exact congrArg (Patch.apply · _) (Pending.eventually_advance _)
  · rw [st₁.drivers_setDriver_self]
    exact hwork

/-- **The loop.** The chunks that are left are carried over in turn. -/
theorem copyChunks (h : copy.Between source st) (horder : copy.InStreamOrder) (hok : calls.Succeed)
    (hle : offset ≤ copy.byteCount)
    (hwork : copy.async = false → 0 < offset → (st.drivers copy.dstRoute).work = []) :
    ∃ st', copy.copyChunks calls offset st = (.success, st') ∧ copy.Between source st' ∧
      (copy.async = false → 0 < copy.byteCount → (st'.drivers copy.dstRoute).work = []) ∧
      readRun (st'.drivers copy.dstRoute).eventually copy.dstDevice copy.byteCount =
        readRun (st.drivers copy.dstRoute).eventually copy.dstDevice offset ++
          encodeBlocks viaClientChunkBytes copy.passedOn
            (readRun source (copy.srcDevice + offset) (copy.byteCount - offset)) ∧
      ∃ more, st'.chunks = st.chunks ++ more ∧ copy.Tiles offset more := by
  induction hleft : copy.byteCount - offset using Nat.strongRecOn generalizing offset st with
  | ind left ih =>
    subst hleft
    rw [ViaClientCopy.copyChunks]
    rcases hle.eq_or_lt with rfl | hlt
    · refine ⟨st, dif_neg (lt_irrefl _), h, hwork, ?_, [], (List.append_nil _).symm, rfl⟩
      rw [Nat.sub_self]
      simp [readRun]
    · obtain ⟨st₁, hchunk, h₁, heventually, hwork₁, hchunks⟩ := h.copyChunk horder hok hlt
      have hpos := copy.chunkAt_pos hlt
      have hsize := copy.chunkAt_eq offset
      obtain ⟨st', hrest, h', hwork', hread, more, hmore, htiles⟩ :=
        ih (copy.byteCount - (offset + copy.chunkAt offset)) (by omega) h₁ (by omega)
          (fun hsync _ ↦ hwork₁ hsync) rfl
      refine ⟨st', ?_, h', hwork', ?_, (offset, copy.chunkAt offset) :: more, ?_, rfl, hsize, hpos,
        htiles⟩
      · rw [dif_pos hlt, hchunk]
        exact hrest
      · -- the chunk in front of what is left
        have hne : readRun source (copy.srcDevice + offset) (copy.byteCount - offset) ≠ [] := by
          rw [← List.length_pos_iff, length_readRun]
          omega
        have hfirst : (readRun source (copy.srcDevice + offset) (copy.byteCount - offset)).take
            viaClientChunkBytes =
              readRun source (copy.srcDevice + offset) (copy.chunkAt offset) := by
          rw [take_readRun, hsize]
        have hlast : (readRun source (copy.srcDevice + offset) (copy.byteCount - offset)).drop
            viaClientChunkBytes = readRun source (copy.srcDevice + (offset + copy.chunkAt offset))
              (copy.byteCount - (offset + copy.chunkAt offset)) := by
          rw [drop_readRun, ← hsize, Nat.add_assoc, Nat.sub_sub]
        rw [hread, heventually, encodeBlocks_of_ne_nil viaClientChunkBytes_pos hne, hfirst, hlast,
          ← List.append_assoc]
        congr 1
        have hlength := copy.length_passedOn
          (readRun source (copy.srcDevice + offset) (copy.chunkAt offset))
        rw [length_readRun] at hlength
        rw [← readRun_apply_append, hlength]
      · rw [hmore, hchunks, List.append_assoc]
        rfl

end Between

/-! ## The whole copy

In the order of the stream the destination gets what is written, at once or when its driver gets to
the work. -/

theorem InStreamOrder.viaClient (horder : copy.InStreamOrder) (earlier : copy.Earlier)
    (hok : calls.Succeed) (hsource : (earlier.drivers copy.srcRoute).eventually = source)
    (hpos : 0 < copy.byteCount) :
    ∃ st, copy.viaClient calls earlier.drivers = (.success, st) ∧ st.overwritten = false ∧
      copy.Tiles 0 st.chunks ∧
      readRun (copy.streamSynchronize st.drivers copy.dstRoute).now copy.dstDevice copy.byteCount =
        copy.written source := by
  have hstart : copy.Between source
      { drivers := earlier.drivers, staging := List.replicate copy.stagingSize 0 } :=
    ⟨hsource, earlier.idle, List.length_replicate, rfl, rfl⟩
  obtain ⟨st, hrun, h, hwork, hread, more, hmore, htiles⟩ :=
    hstart.copyChunks horder hok (Nat.zero_le _) fun _ hlt ↦ absurd hlt (lt_irrefl 0)
  have hnow : (copy.streamSynchronize st.drivers copy.dstRoute).now =
      (st.drivers copy.dstRoute).eventually := by
    rw [streamSynchronize]
    rcases eq_or_ne copy.dstRoute copy.streamRoute with heq | hne
    · rw [heq, Function.update_self]
      exact Pending.now_settle
    · -- a synchronous write has waited for what was pending
      rw [Function.update_of_ne hne]
      have hsync : copy.async = false := horder.resolve_right hne.symm
      exact (Pending.eventually_of_nil (hwork hsync hpos)).symm
  refine ⟨st, ?_, h.overwritten, ?_, ?_⟩
  · rw [ViaClientCopy.viaClient, if_neg hpos.ne']
    exact hrun
  · rw [hmore]
    exact htiles
  · rw [hnow, hread]
    rfl

theorem delivers_of_byteCount_eq_zero (hzero : copy.byteCount = 0) (source : Memory UInt8) :
    copy.Delivers source := by
  intro earlier calls _ _
  rw [ViaClientCopy.viaClient, if_pos hzero]
  exact ⟨rfl, by simp [hzero, readRun], hzero.symm, rfl⟩

/-! ## Out of the order of the stream

A driver may take its time, and then nothing has reached the destination when the stream is
synchronized. This gives the converse. -/

theorem now_cuMemcpyHtoDAsync (hlt : offset < copy.byteCount) (chunk : ℕ) :
    ((copy.cuMemcpyHtoDAsync calls st offset chunk).2.drivers copy.dstRoute).now =
      (st.drivers copy.dstRoute).now := by
  have henqueue : ∀ (st : ViaClientState) (bytes : List UInt8),
      ((copy.enqueueCopy st (copy.dstDevice + offset) bytes).drivers copy.dstRoute).now =
        (st.drivers copy.dstRoute).now := by
    intro st bytes
    rw [enqueueCopy, routeOf_dst hlt, st.drivers_setDriver_self, Pending.now_enqueue]
  simp only [cuMemcpyHtoDAsync, devAdd_dst hlt]
  split_ifs
  · exact henqueue _ _
  · rfl
  · rfl
  · rfl
  · exact henqueue _ _
  · rfl
  · rfl

variable (st) in
theorem now_copyChunk (hasync : copy.async = true) (hran : calls.ran offset = fun _ ↦ 0)
    (hlt : offset < copy.byteCount) :
    ((copy.copyChunk calls st offset).2.drivers copy.dstRoute).now =
      (st.drivers copy.dstRoute).now := by
  have hstill : st.proceed (calls.ran offset) = st := by rw [hran]; rfl
  have hread : ∀ chunk, (copy.cuMemcpyDtoH calls st offset chunk).2.drivers copy.dstRoute =
      st.drivers copy.dstRoute := by
    intro chunk
    simp only [cuMemcpyDtoH, devAdd_src hlt, routeOf_src hlt]
    split_ifs
    · exact st.drivers_setDriver_of_ne srcRoute_ne.symm _
    · rfl
  simp only [copyChunk, hstill, hasync, if_true]
  split
  · next st₁ h₁ =>
    rw [now_cuMemcpyHtoDAsync hlt, ← hread (copy.chunkAt offset), h₁]
  · rw [hread]

/-- Nothing reaches the memory of the destination before its driver gets to the work. -/
theorem now_copyChunks (hasync : copy.async = true) (hran : calls.ran = fun _ _ ↦ 0) :
    ((copy.copyChunks calls offset st).2.drivers copy.dstRoute).now =
      (st.drivers copy.dstRoute).now := by
  induction hleft : copy.byteCount - offset using Nat.strongRecOn generalizing offset st with
  | ind left ih =>
    subst hleft
    rw [copyChunks]
    split_ifs with hlt
    · have hchunk := now_copyChunk st hasync (congrFun hran offset) hlt
      have hpos := copy.chunkAt_pos hlt
      split
      · next st₁ h₁ =>
        rw [ih _ (by omega) rfl, ← hchunk, h₁]
      · exact hchunk
    · rfl

/-- The drivers with nothing pending, and a destination whose first byte is another one. -/
def staleEarlier (copy : ViaClientCopy) (source : Memory UInt8) : copy.Earlier where
  drivers := fun route ↦
    { now := if route = copy.srcRoute then source
        else fun _ ↦ if source copy.srcDevice = 0 then 1 else 0 }
  idle := fun _ _ ↦ rfl

/-- No call fails, and the drivers take their time. -/
def lazyCalls : ViaClientCalls where
  ran := fun _ _ ↦ 0
  read := fun _ ↦ .success
  flush := fun _ ↦ .success
  write := fun _ ↦ .success

theorem lazyCalls_succeed : lazyCalls.Succeed := ⟨fun _ ↦ rfl, fun _ ↦ rfl, fun _ ↦ rfl⟩

/-- **An asynchronous copy on a stream that is not the destination's** is not awaited. -/
theorem not_delivers (hasync : copy.async = true) (hroute : copy.streamRoute ≠ copy.dstRoute)
    (hpos : 0 < copy.byteCount) (source : Memory UInt8) : ¬copy.Delivers source := by
  intro h
  have hcopied := (h (copy.staleEarlier source) lazyCalls lazyCalls_succeed
    (by simp [staleEarlier, Pending.eventually_of_nil])).copied
  rw [streamSynchronize, Function.update_of_ne hroute.symm, ViaClientCopy.viaClient,
    if_neg hpos.ne', now_copyChunks hasync rfl] at hcopied
  have hfirst := congrArg (fun l : List UInt8 ↦ l[0]?) hcopied
  rw [getElem?_readRun hpos, getElem?_readRun hpos, Nat.add_zero, Nat.add_zero] at hfirst
  have hbyte := Option.some_injective _ hfirst
  simp only [staleEarlier, if_neg srcRoute_ne.symm] at hbyte
  split_ifs at hbyte with hzero
  · exact absurd (hbyte.trans hzero) (by decide)
  · exact hzero hbyte.symm

theorem Delivers.inStreamOrder (h : copy.Delivers source) (hpos : 0 < copy.byteCount) :
    copy.InStreamOrder := by
  by_contra hnot
  rw [InStreamOrder, not_or, Bool.not_eq_false] at hnot
  exact not_delivers hnot.1 hnot.2 hpos source h

theorem Delivers.sentAsRead (h : copy.Delivers source) (hpos : 0 < copy.byteCount) :
    copy.SentAsRead source := by
  have hsource : ((copy.staleEarlier source).drivers copy.srcRoute).eventually = source := by
    simp [staleEarlier, Pending.eventually_of_nil]
  obtain ⟨st, hrun, -, -, hread⟩ :=
    (h.inStreamOrder hpos).viaClient (copy.staleEarlier source) lazyCalls_succeed hsource hpos
  have hcopied := (h (copy.staleEarlier source) lazyCalls lazyCalls_succeed hsource).copied
  rw [hrun] at hcopied
  exact written_eq_iff.mp (hread.symm.trans hcopied)

end ViaClientCopy

open ViaClientCopy in
/-- **Copies between two servers.** -/
theorem viaClient_delivers_iff (copy : ViaClientCopy) (source : Memory UInt8) :
    copy.Delivers source ↔
      copy.byteCount = 0 ∨ (copy.InStreamOrder ∧ copy.SentAsRead source) := by
  constructor
  · intro h
    exact (Nat.eq_zero_or_pos copy.byteCount).imp_right fun hpos ↦
      ⟨h.inStreamOrder hpos, h.sentAsRead hpos⟩
  · intro h
    rcases Nat.eq_zero_or_pos copy.byteCount with hzero | hpos
    · exact delivers_of_byteCount_eq_zero hzero source
    · obtain ⟨horder, hsent⟩ := h.resolve_left hpos.ne'
      intro earlier calls hok hsource
      obtain ⟨st, hrun, hstaging, htiles, hread⟩ := horder.viaClient earlier hok hsource hpos
      rw [hrun]
      exact ⟨rfl, hread.trans (written_eq_iff.mpr hsent), htiles, hstaging⟩

/-- The pointers below 0x2000 are of the server behind the second connection. -/
def secondServerBelow (ptr : CUdeviceptr) : ℤ := if ptr < 0x2000 then 1 else 0

/-- One byte, on a stream of the server that is read. -/
def onSourceStream : ViaClientCopy where
  dstDevice := 0x1000
  srcDevice := 0x2000
  byteCount := 1
  hStream := 0x50
  async := true
  routeOf := secondServerBelow
  streamRoute := 0
  blocking := false
  snapshots := []
  cross := by decide
  src_route := by decide
  dst_route := by decide
  src_le := by decide
  dst_le := by decide
  stream_of_sync := nofun
  blocking_of_default := fun h ↦ absurd h (by decide)

/-- Eight bytes, on a stream of the server that is written. -/
def ofMappedAddress : ViaClientCopy where
  dstDevice := 0x1000
  srcDevice := 0x2000
  byteCount := 8
  hStream := 0x50
  async := true
  routeOf := secondServerBelow
  streamRoute := 1
  blocking := true
  snapshots := [{ host := 0x7000, size := 0x1000, devicePtr := 0x9000 }]
  cross := by decide
  src_route := by decide
  dst_route := by decide
  src_le := by decide
  dst_le := by decide
  stream_of_sync := nofun
  blocking_of_default := fun _ ↦ rfl

/-- The bytes at 0x2000 are the word 0x7010. -/
def mappedAddressAt (x : ℕ) : UInt8 := if x = 0x2000 then 0x10 else if x = 0x2001 then 0x70 else 0

/-- The destination keeps its byte, and the other one gets the word 0x9010. -/
theorem viaClient_not_delivered :
    ¬onSourceStream.Delivers (fun _ ↦ 7) ∧ ¬ofMappedAddress.Delivers mappedAddressAt := by
  constructor
  · exact ViaClientCopy.not_delivers rfl (by decide) Nat.one_pos _
  · intro h
    have hsent := h.sentAsRead (by decide)
    have hword : blocks 8 (readRun mappedAddressAt 0x2000 8) = [readRun mappedAddressAt 0x2000 8] :=
      blocks_of_length_le (by decide) (by decide)
    have hchunk : blocks viaClientChunkBytes (readRun mappedAddressAt 0x2000 8) =
        [readRun mappedAddressAt 0x2000 8] := blocks_of_length_le (by decide) (by decide)
    rcases hsent with hsync | hlocal | hunmapped
    · exact absurd hsync (by decide)
    · exact absurd hlocal (by decide)
    · have hsame := hunmapped _ (by rw [ofMappedAddress, hchunk]; exact List.mem_singleton_self _)
        (by decide) _ (by rw [hword]; exact List.mem_singleton_self _) (by decide)
      exact absurd hsame (by decide)

end Lupine
