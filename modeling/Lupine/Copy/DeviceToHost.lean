import Lupine.Cuda
import Lupine.Transport.Framing
import Mathlib.Data.List.Count
import Mathlib.Logic.Function.Basic

/-!
# Synchronous device-to-host copies

The server answers a `cuMemcpyDtoH_v2` with one response for each chunk of 4 MiB, all under the id
of the request. A response that carries an error is the last one. The client is told no number of
responses: it computes each chunk from the byte count and stops behind the last one, or at an error.

A large copy goes through two pinned slots. While a chunk is sent from one of them the next is on
its way into the other. When an event cannot be recorded the pipeline is emptied, and the serial
loop goes on from the first chunk that has not been sent.

## Call outcomes

The outcomes of the calls are a parameter. A call site that a request can reach several times is
told apart by the payload offset, or by the slot, and is reached at most once for each. What a slot
holds while a copy into it may still be running is a parameter as well.

## The sequence of responses

`ChunkStream` is what the server must send from an offset on: the chunks in order up to the last
one, or up to an error in the place of one. The serial path continues such a sequence from any
offset, and every exit of the pipeline leaves either a whole one or one that the serial path can
continue. The client's loop is correct on every such sequence, whichever of the two paths made it.
-/

namespace Lupine

/-! ## Responses

The server's side is a list of events in the order they happen: submissions to a slot, waits,
and responses, with the slot a response is sent from when there is one. The responses on the wire
are those among the events. -/

structure DtohCalls where
  memAllocHost : CUresult
  eventCreate : Fin 2 → CUresult
  /-- `cuMemcpyDtoHAsync_v2`, `cuEventRecord`, and `cuEventSynchronize` before a chunk is sent, by
  payload offset. -/
  memcpyDtoHAsync : ℕ → CUresult
  eventRecord : ℕ → CUresult
  eventSynchronize : ℕ → CUresult
  /-- `cuEventSynchronize` and `cuStreamSynchronize` in `lupine_cleanup_dtoh_pipeline`. -/
  cleanupEventSynchronize : Fin 2 → CUresult
  cleanupStreamSynchronize : CUresult
  /-- Whether the vector of the serial path could be made. -/
  hostResize : Bool
  /-- `cuMemcpyDtoH_v2`, by payload offset. -/
  memcpyDtoH : ℕ → CUresult
  /-- The bytes of a slot while a copy from an offset is not known to be complete. -/
  unfinished : ℕ → List UInt8

/-- A response: the id it answers, the result, and what follows that on the wire. -/
structure ChunkResponse where
  requestId : ℤ
  result : CUresult
  payload : List UInt8
  deriving DecidableEq, Repr

/-- What the server does in order. A response is written from a slot or not. -/
inductive DtohEvent where
  | submit (slot : Fin 2) (offset : ℕ)
  | respond (slot : Option (Fin 2)) (response : ChunkResponse)
  | freeStorage
  deriving DecidableEq, Repr

def responses (events : List DtohEvent) : List ChunkResponse :=
  events.filterMap fun event ↦
    match event with
    | .respond _ response => some response
    | _ => none

/-- How a connection sends payloads, and the request that is answered. -/
structure DtohRequest where
  lz4 : Lz4
  compressLz4 : Bool
  requestId : ℤ
  /-- The bytes on the device from the source address on, as many as are asked for. -/
  device : List UInt8

namespace DtohRequest

variable (request : DtohRequest)

def bytes : ℕ := request.device.length

def chunkAt (offset size : ℕ) : List UInt8 := (request.device.drop offset).take size

def chunkBytes (offset : ℕ) : ℕ := min compressBlockBytes (request.bytes - offset)

/-- `lupine_write_dtoh_chunk_response`. -/
def chunkResponse (result : CUresult) (data : List UInt8) (bytes : ℕ) : ChunkResponse where
  requestId := request.requestId
  result := result
  payload :=
    if result = .success ∧ bytes ≠ 0 then
      encode request.lz4 (payloadFramed request.compressLz4 bytes) (data.take bytes)
    else []

def errorResponse (result : CUresult) : ChunkResponse := request.chunkResponse result [] 0

end DtohRequest

/-! ## The serial path -/

variable (calls : DtohCalls) (request : DtohRequest)

/-- The loop of `lupine_copy_dtoh_serial`; `none` is that it did not come to an end. A copy that
succeeds has stored its chunk in the staging buffer. -/
def copyDtohSerialLoop (stagingSize : ℕ) : ℕ → ℕ → Option (List DtohEvent)
  | 0, _ => none
  | fuel + 1, offset =>
    let chunk := min (request.bytes - offset) stagingSize
    let result := calls.memcpyDtoH offset
    let event := DtohEvent.respond none
      (request.chunkResponse result (request.chunkAt offset chunk) chunk)
    if result ≠ .success then some [event]
    else if offset + chunk < request.bytes then
      (copyDtohSerialLoop stagingSize fuel (offset + chunk)).map (event :: ·)
    else some [event]

/-- `lupine_copy_dtoh_serial`; `none` is `-1`. -/
def copyDtohSerial (offset : ℕ) : Option (List DtohEvent) :=
  if request.bytes < offset then none
  else if !calls.hostResize then
    some [.respond none (request.errorResponse .errorOutOfMemory)]
  else
    copyDtohSerialLoop calls request (min (request.bytes - offset) compressBlockBytes)
      (request.bytes + 1) offset

/-! ## The pipeline

The functions follow the source statement by statement over a record of its local variables. A
round returns what comes next: the loop goes on, the request is answered, or the serial path takes
over from the first offset that was not sent. -/

/-- `lupine_dtoh_pipeline_slot`. -/
structure DtohSlot where
  data : List UInt8 := []
  offset : ℕ := 0
  bytes : ℕ := 0
  inFlight : Bool := false
  eventRecorded : Bool := false
  deriving DecidableEq, Repr

/-- The local variables of `lupine_copy_dtoh_pipelined`, and what it has done so far. -/
structure DtohPipeline where
  slots : Fin 2 → DtohSlot := fun _ ↦ {}
  eventRecordFailed : Bool := false
  sentOffset : ℕ := 0
  submittedOffset : ℕ := 0
  /-- `terminal_error_offset` and `terminal_error`, when one is pending. -/
  terminalError : Option (ℕ × CUresult) := none
  events : List DtohEvent := []

/-- A return of `0`, or of `1` with the `fallback_offset`. -/
inductive DtohExit where
  | done
  | fallback (offset : ℕ)
  deriving DecidableEq, Repr

/-- What comes next in `lupine_copy_dtoh_pipelined`. -/
inductive DtohFlow where
  | exit (result : DtohExit) (pipeline : DtohPipeline)
  | go (pipeline : DtohPipeline)

/-- `lupine_cleanup_dtoh_pipeline`: its result, and whether it is known that no copy is running any
more. Only then is the storage freed. -/
def cleanupDtohPipeline (slots : Fin 2 → DtohSlot) (synchronizeStream : Bool) : CUresult × Bool :=
  if synchronizeStream ∨ ∃ i, (slots i).inFlight ∧ !(slots i).eventRecorded then
    (calls.cleanupStreamSynchronize, calls.cleanupStreamSynchronize = .success)
  else
    let failed := (List.finRange 2).find? fun i ↦
      (slots i).inFlight && (slots i).eventRecorded && calls.cleanupEventSynchronize i != .success
    match failed with
    | some i => (calls.cleanupEventSynchronize i, calls.cleanupStreamSynchronize = .success)
    | none => (.success, true)

namespace DtohPipeline

variable (p : DtohPipeline)

def respond (slot : Option (Fin 2)) (response : ChunkResponse) : DtohPipeline :=
  { p with events := p.events ++ [.respond slot response] }

def cleanup (synchronizeStream : Bool) : DtohPipeline :=
  if (cleanupDtohPipeline calls p.slots synchronizeStream).2 then
    { p with events := p.events ++ [.freeStorage] }
  else p

/-- The way out when an event could not be recorded, or a slot is not as expected. -/
def abandon : DtohFlow :=
  let result := (cleanupDtohPipeline calls p.slots true).1
  let cleaned := p.cleanup calls true
  if result ≠ .success then .exit .done (cleaned.respond none (request.errorResponse result))
  else .exit (.fallback p.sentOffset) cleaned

/-- `submit`, which is always given the `submitted_offset`. -/
def submit (i : Fin 2) : CUresult × DtohPipeline :=
  let offset := p.submittedOffset
  let slot : DtohSlot :=
    { data := calls.unfinished offset
      offset := offset
      bytes := min compressBlockBytes (request.bytes - offset)
      inFlight := true }
  let result := calls.memcpyDtoHAsync offset
  let submitted := { p with
    slots := Function.update p.slots i slot
    events := p.events ++ [.submit i offset] }
  if result ≠ .success then (result, submitted)
  else if calls.eventRecord offset ≠ .success then
    (.success, { submitted with eventRecordFailed := true })
  else
    (.success, { submitted with
      slots := Function.update p.slots i { slot with eventRecorded := true } })

def submitNext (i : Fin 2) : DtohFlow :=
  let (result, submitted) := p.submit calls request i
  if submitted.eventRecordFailed then submitted.abandon calls request
  else if result ≠ .success then
    .go { submitted with terminalError := some (submitted.submittedOffset, result) }
  else
    .go { submitted with
      submittedOffset := submitted.submittedOffset + (submitted.slots i).bytes }

/-- The loop over the slots before the first chunk is sent. -/
def prime : List (Fin 2) → DtohPipeline → DtohFlow
  | [], p => .go p
  | i :: slots, p =>
    if p.submittedOffset = request.bytes then .go p
    else
      match p.submitNext calls request i with
      | .exit result p' => .exit result p'
      | .go p' => if p'.terminalError.isSome then .go p' else prime slots p'

/-- The slot that holds the chunk at an offset. -/
def slotIndex (offset : ℕ) : Fin 2 :=
  ⟨offset / compressBlockBytes % 2, Nat.mod_lt _ (by decide)⟩

/-- The chunk in a slot is sent. The event has completed, and with it the copy before it. -/
def send (i : Fin 2) : DtohPipeline :=
  let slot := p.slots i
  let data := request.chunkAt slot.offset slot.bytes
  let sent := p.respond (some i) (request.chunkResponse .success data slot.bytes)
  { sent with
    sentOffset := p.sentOffset + slot.bytes
    slots := Function.update p.slots i
      { slot with data := data, inFlight := false, eventRecorded := false } }

/-- One round of the loop that sends the chunks. -/
def round : DtohFlow :=
  let i := slotIndex p.sentOffset
  match p.terminalError with
  | some (offset, error) =>
    if offset = p.sentOffset then
      .exit .done ((p.respond none (request.errorResponse error)).cleanup calls false)
    else sendRound i
  | none => sendRound i
where
  /-- The round when no error is due at this offset. -/
  sendRound (i : Fin 2) : DtohFlow :=
    let slot := p.slots i
    if !slot.inFlight ∨ !slot.eventRecorded ∨ slot.offset ≠ p.sentOffset then
      p.abandon calls request
    else
      let result := calls.eventSynchronize p.sentOffset
      if result ≠ .success then
        .exit .done ((p.respond none (request.errorResponse result)).cleanup calls true)
      else
        let sent := p.send request i
        if sent.submittedOffset < request.bytes ∧ sent.terminalError.isNone then
          sent.submitNext calls request i
        else .go sent

/-- The loop that sends the chunks; `none` is that it did not come to an end. -/
def loop : ℕ → DtohPipeline → Option (DtohExit × DtohPipeline)
  | 0, _ => none
  | fuel + 1, p =>
    if p.sentOffset < request.bytes then
      match p.round calls request with
      | .exit result p' => some (result, p')
      | .go p' => loop fuel p'
    else some (.done, p.cleanup calls false)

end DtohPipeline

/-- `lupine_copy_dtoh_pipelined`. -/
def copyDtohPipelined : Option (DtohExit × DtohPipeline) :=
  let p : DtohPipeline := {}
  if calls.memAllocHost ≠ .success then some (.fallback 0, p)
  else if ∃ i, calls.eventCreate i ≠ .success then
    some (.fallback 0, p.cleanup calls false)
  else
    match DtohPipeline.prime calls request (List.finRange 2) p with
    | .exit result p' => some (result, p')
    | .go p' => DtohPipeline.loop calls request (request.bytes + 1) p'

/-- `LUPINE_DTOH_PIPELINE_MIN_BYTES`. -/
def dtohPipelineMinBytes : ℕ := 8 * compressBlockBytes

/-- `handle_manual_cuMemcpyDtoH_v2`, behind the request; `none` is `-1`. -/
def handleManualCuMemcpyDtoH_v2 : Option (List DtohEvent) :=
  if dtohPipelineMinBytes ≤ request.bytes then
    match copyDtohPipelined calls request with
    | none => none
    | some (.done, p) => some p.events
    | some (.fallback offset, p) => (copyDtohSerial calls request offset).map (p.events ++ ·)
  else copyDtohSerial calls request 0

/-! ## The client

The client stores chunk after chunk and stops at an error. It is not told how many responses
there are, so a sequence that is too short leaves it waiting, and one that is too long leaves a
response that nobody reads. -/

/-- What a response with a successful result carries is read; it must be read to its end. -/
def readChunk (payload : List UInt8) (chunk : ℕ) : Option (List UInt8) :=
  if chunk = 0 then if payload = [] then some [] else none
  else
    match unlessNegative (readPayloadPart request.lz4 (payloadFramed request.compressLz4 chunk)
      payload chunk) with
    | some ⟨_, data, []⟩ => some data
    | _ => none

def storeAt (dst : List UInt8) (offset : ℕ) (data : List UInt8) : List UInt8 :=
  dst.take offset ++ data ++ dst.drop (offset + data.length)

/-- The loop of the client's `cuMemcpyDtoH_v2` from an offset on: what it returns, its buffer, and
the responses it leaves unread. `none` is that it waits for a response that does not come, or that
it leaves a response before or behind its end. -/
def cuMemcpyDtoHLoop : ℕ → List UInt8 → List ChunkResponse →
    Option (CUresult × List UInt8 × List ChunkResponse)
  | _, _, [] => none
  | offset, dstHost, response :: rest =>
    let chunk := min (request.bytes - offset) compressBlockBytes
    if response.requestId ≠ request.requestId then none
    else if response.result ≠ .success then
      if response.payload = [] then some (response.result, dstHost, rest) else none
    else
      match readChunk request response.payload chunk with
      | none => none
      | some data =>
        let dstHost := storeAt dstHost offset data
        if offset + chunk < request.bytes then cuMemcpyDtoHLoop (offset + chunk) dstHost rest
        else some (.success, dstHost, rest)

/-! ## The sequence of responses

A failure is answered without a payload, whatever chunk it is about, and there is a chunk at every
offset before the end. -/

/-- The responses from an offset on, as they should be: the chunks in order, up to the last one or
to an error in the place of one. -/
inductive ChunkStream : ℕ → List ChunkResponse → Prop
  | error {offset : ℕ} {result : CUresult} (failed : result ≠ .success) :
    ChunkStream offset [request.errorResponse result]
  | last {offset : ℕ} (last : request.bytes ≤ offset + request.chunkBytes offset) :
    ChunkStream offset [request.chunkResponse .success
      (request.chunkAt offset (request.chunkBytes offset)) (request.chunkBytes offset)]
  | next {offset : ℕ} {rest : List ChunkResponse}
    (more : offset + request.chunkBytes offset < request.bytes)
    (stream : ChunkStream (offset + request.chunkBytes offset) rest) :
    ChunkStream offset (request.chunkResponse .success
      (request.chunkAt offset (request.chunkBytes offset)) (request.chunkBytes offset) :: rest)

variable {calls request}

theorem responses_append (events others : List DtohEvent) :
    responses (events ++ others) = responses events ++ responses others := List.filterMap_append

theorem length_chunkAt (offset size : ℕ) (h : offset + size ≤ request.bytes) :
    (request.chunkAt offset size).length = size := by
  have hbytes : request.bytes = request.device.length := rfl
  rw [DtohRequest.chunkAt, List.length_take, List.length_drop]
  omega

theorem chunkBytes_le (offset : ℕ) (h : offset ≤ request.bytes) :
    offset + request.chunkBytes offset ≤ request.bytes := by
  rw [DtohRequest.chunkBytes]
  omega

theorem chunkBytes_pos {offset : ℕ} (h : offset < request.bytes) :
    0 < request.chunkBytes offset := by
  have hblock := compressBlockBytes_pos
  rw [DtohRequest.chunkBytes]
  omega

@[simp] theorem chunkResponse_requestId (result : CUresult) (data : List UInt8) (bytes : ℕ) :
    (request.chunkResponse result data bytes).requestId = request.requestId := rfl

@[simp] theorem chunkResponse_result (result : CUresult) (data : List UInt8) (bytes : ℕ) :
    (request.chunkResponse result data bytes).result = result := rfl

theorem errorResponse_payload (result : CUresult) : (request.errorResponse result).payload = [] :=
  if_neg fun h ↦ h.2 rfl

theorem chunkResponse_of_failed {result : CUresult} (failed : result ≠ .success)
    (data : List UInt8) (bytes : ℕ) :
    request.chunkResponse result data bytes = request.errorResponse result := by
  rw [DtohRequest.errorResponse, DtohRequest.chunkResponse, DtohRequest.chunkResponse,
    if_neg fun h ↦ failed h.1, if_neg fun h ↦ failed h.1]

/-! ## The client

The prefix that the buffer has in common with the device grows by a chunk with every response. -/

theorem readChunk_chunkResponse {offset : ℕ} (h : offset ≤ request.bytes) :
    readChunk request (request.chunkResponse .success
        (request.chunkAt offset (request.chunkBytes offset)) (request.chunkBytes offset)).payload
        (request.chunkBytes offset)
      = some (request.chunkAt offset (request.chunkBytes offset)) := by
  have hlength := length_chunkAt offset _ (chunkBytes_le offset h)
  have hsmall : request.chunkBytes offset < 2 ^ 31 :=
    lt_of_le_of_lt (Nat.min_le_left _ _) (by decide)
  generalize hdata : request.chunkAt offset (request.chunkBytes offset) = data at hlength ⊢
  generalize request.chunkBytes offset = chunk at hlength hsmall ⊢
  rw [readChunk, DtohRequest.chunkResponse]
  by_cases hzero : chunk = 0
  · rw [if_pos hzero, if_pos (if_neg fun h ↦ h.2 hzero),
      List.length_eq_zero_iff.mp (hlength.trans hzero)]
  · rw [if_neg hzero, if_pos ⟨rfl, hzero⟩, List.take_of_length_le hlength.le]
    have hread := unlessNegative_readPayloadPart request.lz4
      (payloadFramed request.compressLz4 chunk) [] hlength.ge hsmall (Or.inr hlength.symm)
    rw [List.append_nil, List.take_of_length_le hlength.le, List.drop_eq_nil_of_le hlength.le,
      encode_nil] at hread
    rw [hread]
    rfl

theorem storeAt_chunk {dst : List UInt8} {offset : ℕ} (hoffset : offset ≤ request.bytes)
    (hlength : dst.length = request.bytes)
    (hdone : dst.take offset = request.device.take offset) :
    (storeAt dst offset (request.chunkAt offset (request.chunkBytes offset))).length
        = request.bytes ∧
      (storeAt dst offset (request.chunkAt offset (request.chunkBytes offset))).take
          (offset + request.chunkBytes offset)
        = request.device.take (offset + request.chunkBytes offset) := by
  have hchunk := length_chunkAt offset _ (chunkBytes_le offset hoffset)
  have hle := chunkBytes_le offset hoffset
  have hfront : (dst.take offset ++ request.chunkAt offset (request.chunkBytes offset)).length
      = offset + request.chunkBytes offset := by
    rw [List.length_append, List.length_take, hchunk]
    omega
  refine ⟨by rw [storeAt, List.length_append, hfront, List.length_drop]; omega, ?_⟩
  rw [storeAt, List.take_left' hfront, hdone, DtohRequest.chunkAt, List.take_add]

theorem cuMemcpyDtoHLoop_error {offset : ℕ} {dstHost : List UInt8} {result : CUresult}
    (rest : List ChunkResponse) (failed : result ≠ .success) :
    cuMemcpyDtoHLoop request offset dstHost (request.errorResponse result :: rest)
      = some (result, dstHost, rest) := by
  have hpayload : (request.errorResponse result).payload = [] := errorResponse_payload result
  rw [DtohRequest.errorResponse] at hpayload ⊢
  rw [cuMemcpyDtoHLoop]
  simp only [chunkResponse_requestId, chunkResponse_result, hpayload, ne_eq, failed,
    not_true_eq_false, not_false_eq_true, if_true, if_false]

theorem cuMemcpyDtoHLoop_chunk {offset : ℕ} {dstHost : List UInt8} (rest : List ChunkResponse)
    (hoffset : offset ≤ request.bytes) :
    cuMemcpyDtoHLoop request offset dstHost (request.chunkResponse .success
        (request.chunkAt offset (request.chunkBytes offset)) (request.chunkBytes offset) :: rest)
      = if offset + request.chunkBytes offset < request.bytes then
          cuMemcpyDtoHLoop request (offset + request.chunkBytes offset)
            (storeAt dstHost offset (request.chunkAt offset (request.chunkBytes offset))) rest
        else
          some (.success,
            storeAt dstHost offset (request.chunkAt offset (request.chunkBytes offset)), rest) := by
  have hread := readChunk_chunkResponse hoffset
  have hchunk : min (request.bytes - offset) compressBlockBytes = request.chunkBytes offset :=
    Nat.min_comm _ _
  rw [cuMemcpyDtoHLoop]
  simp only [hchunk, hread, chunkResponse_requestId, chunkResponse_result, ne_eq,
    not_true_eq_false, if_false]

/-- **The client on a sequence as it should be.** It reads every response and no more, and when it
returns success its buffer holds the bytes of the device. -/
theorem cuMemcpyDtoHLoop_chunkStream {offset : ℕ} {stream : List ChunkResponse}
    (h : ChunkStream request offset stream) {dstHost : List UInt8}
    (hoffset : offset ≤ request.bytes) (hlength : dstHost.length = request.bytes)
    (hdone : dstHost.take offset = request.device.take offset) :
    ∃ result dst, cuMemcpyDtoHLoop request offset dstHost stream = some (result, dst, []) ∧
      (result = .success → dst = request.device) := by
  induction h generalizing dstHost with
  | @error offset result failed =>
    exact ⟨result, dstHost, cuMemcpyDtoHLoop_error [] failed,
      fun hsuccess ↦ absurd hsuccess failed⟩
  | @last offset last =>
    obtain ⟨hlen, htake⟩ := storeAt_chunk hoffset hlength hdone
    refine ⟨.success,
      storeAt dstHost offset (request.chunkAt offset (request.chunkBytes offset)), ?_, fun _ ↦ ?_⟩
    · rw [cuMemcpyDtoHLoop_chunk [] hoffset, if_neg last.not_gt]
    · rw [List.take_of_length_le (hlen.le.trans last), List.take_of_length_le last] at htake
      exact htake
  | @next offset rest more stream ih =>
    obtain ⟨hlen, htake⟩ := storeAt_chunk hoffset hlength hdone
    obtain ⟨result, dst, hloop, hdst⟩ := ih more.le hlen htake
    exact ⟨result, dst, by rw [cuMemcpyDtoHLoop_chunk rest hoffset, if_pos more, hloop], hdst⟩

/-! ## The serial path -/

/-- An event of the serial path. -/
def DtohEvent.Serial (event : DtohEvent) : Prop := ∃ response, event = .respond none response

theorem copyDtohSerialLoop_spec {stagingSize fuel offset : ℕ} (hoffset : offset ≤ request.bytes)
    (hstaging : ∀ o, offset ≤ o → min (request.bytes - o) stagingSize = request.chunkBytes o)
    (hfuel : request.bytes - offset < fuel) :
    ∃ events, copyDtohSerialLoop calls request stagingSize fuel offset = some events ∧
      ChunkStream request offset (responses events) ∧ ∀ event ∈ events, event.Serial := by
  induction fuel generalizing offset with
  | zero => omega
  | succ fuel ih =>
    have hle := chunkBytes_le offset hoffset
    rw [copyDtohSerialLoop]
    simp only [hstaging offset le_rfl]
    by_cases hresult : calls.memcpyDtoH offset ≠ .success
    · rw [if_pos hresult, chunkResponse_of_failed hresult]
      refine ⟨_, rfl, .error hresult, fun event hevent ↦ ?_⟩
      exact ⟨_, List.mem_singleton.mp hevent⟩
    · rw [if_neg hresult, not_not.mp hresult]
      by_cases hmore : offset + request.chunkBytes offset < request.bytes
      · have hpos := chunkBytes_pos (lt_of_le_of_lt (Nat.le_add_right _ _) hmore)
        obtain ⟨events, hloop, hstream, hserial⟩ := ih hle
          (fun o ho ↦ hstaging o ((Nat.le_add_right _ _).trans ho)) (by omega)
        rw [if_pos hmore, hloop]
        refine ⟨_, rfl, .next hmore hstream, fun event hevent ↦ ?_⟩
        rcases List.mem_cons.mp hevent with rfl | hevent
        · exact ⟨_, rfl⟩
        · exact hserial event hevent
      · rw [if_neg hmore]
        refine ⟨_, rfl, .last (not_lt.mp hmore), fun event hevent ↦ ?_⟩
        exact ⟨_, List.mem_singleton.mp hevent⟩

variable (calls) in
/-- **The serial path** sends what is left from the offset it is given. -/
theorem copyDtohSerial_spec {offset : ℕ} (hoffset : offset ≤ request.bytes) :
    ∃ events, copyDtohSerial calls request offset = some events ∧
      ChunkStream request offset (responses events) ∧ ∀ event ∈ events, event.Serial := by
  rw [copyDtohSerial, if_neg hoffset.not_gt]
  by_cases hresize : !calls.hostResize
  · rw [if_pos hresize]
    refine ⟨_, rfl, .error (by simp), fun event hevent ↦ ?_⟩
    exact ⟨_, List.mem_singleton.mp hevent⟩
  · rw [if_neg hresize]
    refine copyDtohSerialLoop_spec hoffset (fun o ho ↦ ?_) (by omega)
    rw [DtohRequest.chunkBytes]
    omega

/-! ## The slots

A slot may be filled again only when everything it was filled with has been sent. Over a list of
events this is a condition on each submission and the events before it, so it is kept by appending
one event at a time. -/

def DtohEvent.submitsTo (slot : Fin 2) : DtohEvent → Bool
  | submit i _ => i = slot
  | _ => false

def DtohEvent.sendsFrom (slot : Fin 2) : DtohEvent → Bool
  | respond (some i) _ => i = slot
  | _ => false

/-- Whenever a slot is filled, everything it was filled with before has been sent. -/
def RefillSafe (events : List DtohEvent) : Prop :=
  ∀ before slot offset after, events = before ++ .submit slot offset :: after →
    before.countP (DtohEvent.submitsTo slot) = before.countP (DtohEvent.sendsFrom slot)

theorem RefillSafe.concat {events : List DtohEvent} (h : RefillSafe events) {event : DtohEvent}
    (hsubmit : ∀ slot offset, event = .submit slot offset →
      events.countP (DtohEvent.submitsTo slot) = events.countP (DtohEvent.sendsFrom slot)) :
    RefillSafe (events ++ [event]) := by
  intro before slot offset after hsplit
  rcases List.eq_nil_or_concat after with rfl | ⟨front, last, rfl⟩
  · obtain ⟨hevents, hevent⟩ := List.append_inj' hsplit rfl
    rw [← hevents]
    exact hsubmit slot offset (List.singleton_inj.mp hevent)
  · rw [List.concat_eq_append, ← List.cons_append, ← List.append_assoc] at hsplit
    exact h before slot offset front (List.append_inj' hsplit rfl).1

theorem RefillSafe.append_serial {events others : List DtohEvent} (h : RefillSafe events)
    (hserial : ∀ event ∈ others, event.Serial) : RefillSafe (events ++ others) := by
  induction others generalizing events with
  | nil => rwa [List.append_nil]
  | cons event others ih =>
    rw [← List.singleton_append, ← List.append_assoc]
    refine ih (h.concat fun slot offset heq ↦ ?_) fun e he ↦ hserial e (List.mem_cons_of_mem _ he)
    obtain ⟨response, hresponse⟩ := hserial event List.mem_cons_self
    exact absurd (hresponse.symm.trans heq) (by simp)

/-! ## The pipeline

The invariant says of the slots in flight which chunk each of them holds, and of the responses
sent so far that they continue to a sequence as it should be. Filling an empty slot and sending the
next chunk keep it, emptying the pipeline ends in an error or hands over to the serial path, and a
round makes progress, so the loop ends. -/

variable (request) in
/-- Between two statements of `lupine_copy_dtoh_pipelined`: what the slots in flight hold, and that
the responses sent so far continue to a sequence as it should be. -/
structure DtohPipeline.Ok (p : DtohPipeline) : Prop where
  recorded : p.eventRecordFailed = false
  sent_le : p.sentOffset ≤ p.submittedOffset
  submitted_le : p.submittedOffset ≤ request.bytes
  slot : ∀ i, (p.slots i).inFlight → (p.slots i).eventRecorded →
    (p.slots i).bytes = request.chunkBytes (p.slots i).offset ∧
      (p.slots i).offset + (p.slots i).bytes ≤ p.submittedOffset
  terminal : ∀ offset error, p.terminalError = some (offset, error) → error ≠ .success
  more : p.sentOffset < request.bytes → ∀ rest, ChunkStream request p.sentOffset rest →
    ChunkStream request 0 (responses p.events ++ rest)
  all : p.sentOffset = request.bytes → ChunkStream request 0 (responses p.events)
  refill : RefillSafe p.events
  filled : ∀ i, p.events.countP (DtohEvent.submitsTo i)
    = p.events.countP (DtohEvent.sendsFrom i) + if (p.slots i).inFlight then 1 else 0

variable (request) in
/-- What a return leaves: the whole sequence, or one that the serial path completes. -/
def DtohExit.Ok (exit : DtohExit) (p : DtohPipeline) : Prop :=
  RefillSafe p.events ∧
    match exit with
    | .done => ChunkStream request 0 (responses p.events)
    | .fallback offset => offset < request.bytes ∧ ∀ rest, ChunkStream request offset rest →
      ChunkStream request 0 (responses p.events ++ rest)

namespace DtohPipeline

variable {p : DtohPipeline} {i : Fin 2}

theorem responses_cleanup (p : DtohPipeline) (synchronizeStream : Bool) :
    responses (p.cleanup calls synchronizeStream).events = responses p.events := by
  rw [cleanup]
  split_ifs
  · rw [responses_append]
    exact List.append_nil _
  · rfl

theorem refillSafe_cleanup (h : RefillSafe p.events) (synchronizeStream : Bool) :
    RefillSafe (p.cleanup calls synchronizeStream).events := by
  rw [cleanup]
  split_ifs
  · exact h.concat fun slot offset heq ↦ absurd heq (by simp)
  · exact h

theorem respond_error (hmore : ∀ rest, ChunkStream request p.sentOffset rest →
      ChunkStream request 0 (responses p.events ++ rest))
    (hrefill : RefillSafe p.events) {error : CUresult} (failed : error ≠ .success) :
    DtohExit.Ok request .done (p.respond none (request.errorResponse error)) := by
  refine ⟨hrefill.concat fun slot offset heq ↦ absurd heq (by simp), ?_⟩
  show ChunkStream request 0 (responses (p.events ++ [.respond none _]))
  rw [responses_append]
  exact hmore _ (.error failed)

theorem cleanup_ok {exit : DtohExit} (h : exit.Ok request p) (synchronizeStream : Bool) :
    exit.Ok request (p.cleanup calls synchronizeStream) := by
  refine ⟨refillSafe_cleanup h.1 synchronizeStream, ?_⟩
  cases exit with
  | done =>
    show ChunkStream request 0 (responses _)
    rw [responses_cleanup]
    exact h.2
  | fallback offset =>
    refine ⟨h.2.1, fun rest hrest ↦ ?_⟩
    rw [responses_cleanup]
    exact h.2.2 rest hrest

theorem abandon_ok (hlt : p.sentOffset < request.bytes)
    (hmore : ∀ rest, ChunkStream request p.sentOffset rest →
      ChunkStream request 0 (responses p.events ++ rest)) (hrefill : RefillSafe p.events) :
    ∃ exit p', p.abandon calls request = .exit exit p' ∧ exit.Ok request p' := by
  rw [abandon]
  split_ifs with hresult
  · refine ⟨.done, _, rfl, ?_⟩
    have hsent : (p.cleanup calls true).sentOffset = p.sentOffset := by
      rw [cleanup]
      split_ifs <;> rfl
    refine respond_error ?_ (refillSafe_cleanup hrefill true) hresult
    rw [hsent, responses_cleanup]
    exact hmore
  · have hexit : DtohExit.Ok request (.fallback p.sentOffset) p := ⟨hrefill, hlt, hmore⟩
    exact ⟨.fallback p.sentOffset, _, rfl, cleanup_ok hexit true⟩

theorem responses_submit (events : List DtohEvent) (offset : ℕ) :
    responses (events ++ [.submit i offset]) = responses events := by
  rw [responses_append]
  exact List.append_nil _

theorem Ok.refill_submit (h : p.Ok request) (hempty : (p.slots i).inFlight = false) (offset : ℕ) :
    RefillSafe (p.events ++ [.submit i offset]) := by
  refine h.refill.concat fun slot offset' heq ↦ ?_
  obtain ⟨rfl, -⟩ := DtohEvent.submit.inj heq
  have hfilled := h.filled i
  rw [hempty] at hfilled
  exact hfilled

theorem Ok.fill (h : p.Ok request) (hempty : (p.slots i).inFlight = false) (slot : DtohSlot)
    (hflight : slot.inFlight = true) {submitted : ℕ} (hle : p.submittedOffset ≤ submitted)
    (hbytes : submitted ≤ request.bytes)
    (hslot : slot.eventRecorded → slot.bytes = request.chunkBytes slot.offset ∧
      slot.offset + slot.bytes ≤ submitted)
    {terminal : Option (ℕ × CUresult)}
    (hterminal : ∀ offset error, terminal = some (offset, error) → error ≠ .success)
    (offset : ℕ) :
    Ok request { p with
      slots := Function.update p.slots i slot
      submittedOffset := submitted
      terminalError := terminal
      events := p.events ++ [.submit i offset] } := by
  have hresponses := responses_submit (i := i) p.events offset
  refine ⟨h.recorded, h.sent_le.trans hle, hbytes, fun j ↦ ?_, hterminal, ?_, ?_,
    h.refill_submit hempty offset, fun j ↦ ?_⟩
  · rcases eq_or_ne j i with rfl | hne
    · simp only [Function.update_self]
      exact fun _ hrecorded ↦ hslot hrecorded
    · simp only [Function.update_of_ne hne]
      intro hj hrecorded
      obtain ⟨hsize, hend⟩ := h.slot j hj hrecorded
      exact ⟨hsize, hend.trans hle⟩
  · simp only [hresponses]
    exact h.more
  · simp only [hresponses]
    exact h.all
  · have hfilled := h.filled j
    simp only [List.countP_append]
    have hzero : [DtohEvent.submit i offset].countP (DtohEvent.sendsFrom j) = 0 := rfl
    rcases eq_or_ne j i with rfl | hne
    · have hone : [DtohEvent.submit j offset].countP (DtohEvent.submitsTo j) = 1 := by
        simp [DtohEvent.submitsTo]
      rw [hempty] at hfilled
      simp only [Function.update_self, hflight, if_true]
      rw [hone, hzero, hfilled]
      rfl
    · have hnone : [DtohEvent.submit i offset].countP (DtohEvent.submitsTo j) = 0 := by
        simp [DtohEvent.submitsTo, hne.symm]
      simp only [Function.update_of_ne hne]
      rw [hnone, hzero, hfilled]
      rfl

/-- A submission goes on, with nothing sent and no other slot changed, or ends the pipeline. -/
theorem submitNext_ok (h : p.Ok request) (hmore : p.submittedOffset < request.bytes)
    (hempty : (p.slots i).inFlight = false) :
    (∃ exit p', p.submitNext calls request i = .exit exit p' ∧ exit.Ok request p') ∨
      ∃ p', p.submitNext calls request i = .go p' ∧ p'.Ok request ∧ p'.sentOffset = p.sentOffset ∧
        ∀ j, j ≠ i → p'.slots j = p.slots j := by
  have hother : ∀ (slot : DtohSlot) (j : Fin 2), j ≠ i →
      Function.update p.slots i slot j = p.slots j :=
    fun slot j hne ↦ Function.update_of_ne hne _ _
  have hgoes : ¬ p.eventRecordFailed = true := by simp [h.recorded]
  have hle := chunkBytes_le p.submittedOffset hmore.le
  rw [submitNext, submit]
  by_cases hcopy : calls.memcpyDtoHAsync p.submittedOffset ≠ .success
  · -- the copy was refused, or an earlier failure is reported in its place
    simp only [if_pos hcopy, if_neg hgoes]
    refine Or.inr ⟨_, rfl, h.fill hempty _ rfl le_rfl h.submitted_le
      (fun hrecorded ↦ absurd hrecorded Bool.false_ne_true) ?_ _, rfl, hother _⟩
    intro offset error heq
    obtain ⟨-, rfl⟩ := Prod.mk.inj (Option.some.inj heq)
    exact hcopy
  · simp only [if_neg hcopy]
    by_cases hrecord : calls.eventRecord p.submittedOffset ≠ .success
    · simp only [if_pos hrecord, if_true]
      have hlt := lt_of_le_of_lt h.sent_le hmore
      refine Or.inl (abandon_ok hlt ?_ (h.refill_submit hempty _))
      simp only [responses_submit]
      exact h.more hlt
    · simp only [if_neg hrecord, if_neg hgoes, ne_eq, not_true_eq_false, if_false,
        Function.update_self]
      exact Or.inr ⟨_, rfl, h.fill hempty _ rfl (Nat.le_add_right _ _) hle
        (fun _ ↦ ⟨rfl, le_rfl⟩) h.terminal _, rfl, hother _⟩

theorem prime_ok (slots : List (Fin 2)) (h : p.Ok request) (hnodup : slots.Nodup)
    (hempty : ∀ i ∈ slots, (p.slots i).inFlight = false) :
    (∃ exit p', prime calls request slots p = .exit exit p' ∧ exit.Ok request p') ∨
      ∃ p', prime calls request slots p = .go p' ∧ p'.Ok request := by
  induction slots generalizing p with
  | nil => exact Or.inr ⟨p, rfl, h⟩
  | cons i slots ih =>
    rw [prime]
    by_cases hall : p.submittedOffset = request.bytes
    · rw [if_pos hall]
      exact Or.inr ⟨p, rfl, h⟩
    · rw [if_neg hall]
      obtain ⟨hi, hnodup⟩ := List.nodup_cons.mp hnodup
      rcases submitNext_ok h (lt_of_le_of_ne h.submitted_le hall)
        (hempty i List.mem_cons_self) with ⟨exit, p', heq, hexit⟩ | ⟨p', heq, hp', -, hother⟩
      · rw [heq]
        exact Or.inl ⟨exit, p', rfl, hexit⟩
      · rw [heq]
        simp only
        split_ifs
        · exact Or.inr ⟨p', rfl, hp'⟩
        · refine ih hp' hnodup fun j hj ↦ ?_
          rw [hother j fun heq ↦ hi (heq ▸ hj)]
          exact hempty j (List.mem_cons_of_mem _ hj)

theorem send_ok (h : p.Ok request) (hmore : p.sentOffset < request.bytes)
    (hflight : (p.slots i).inFlight) (hrecorded : (p.slots i).eventRecorded)
    (hoffset : (p.slots i).offset = p.sentOffset) :
    (p.send request i).Ok request ∧ ((p.send request i).slots i).inFlight = false ∧
      p.sentOffset < (p.send request i).sentOffset := by
  obtain ⟨hsize, hend⟩ := h.slot i hflight hrecorded
  rw [hoffset] at hsize hend
  have hpos := chunkBytes_pos hmore
  have hresponses : responses (p.send request i).events = responses p.events ++
      [request.chunkResponse .success
        (request.chunkAt p.sentOffset (request.chunkBytes p.sentOffset))
        (request.chunkBytes p.sentOffset)] := by
    have hsent : (p.send request i).events = p.events ++ [.respond (some i)
        (request.chunkResponse .success (request.chunkAt (p.slots i).offset (p.slots i).bytes)
          (p.slots i).bytes)] := rfl
    rw [hsent, responses_append, hoffset, hsize]
    rfl
  have hsentOffset : (p.send request i).sentOffset
      = p.sentOffset + request.chunkBytes p.sentOffset := by
    rw [← hsize]
    rfl
  refine ⟨⟨h.recorded, ?_, h.submitted_le, fun j ↦ ?_, h.terminal, ?_, ?_, ?_, fun j ↦ ?_⟩, ?_, ?_⟩
  · rw [hsentOffset, ← hsize]
    exact hend
  · rcases eq_or_ne j i with rfl | hne
    · simp only [send, Function.update_self]
      exact fun hfalse ↦ absurd hfalse Bool.false_ne_true
    · simp only [send, Function.update_of_ne hne]
      exact h.slot j
  · rw [hsentOffset, hresponses]
    intro hlt rest hrest
    rw [List.append_assoc]
    exact h.more hmore _ (.next hlt hrest)
  · rw [hsentOffset, hresponses]
    intro hall
    exact h.more hmore _ (.last hall.ge)
  · exact h.refill.concat fun slot offset heq ↦ absurd heq (by simp)
  · -- the slot was filled once more than it was sent from
    have hfilled := h.filled j
    have hnone : [DtohEvent.respond (some i) (request.chunkResponse .success
        (request.chunkAt (p.slots i).offset (p.slots i).bytes) (p.slots i).bytes)].countP
          (DtohEvent.submitsTo j) = 0 := rfl
    simp only [send, respond, List.countP_append, hnone, List.countP_singleton,
      DtohEvent.sendsFrom]
    rcases eq_or_ne j i with rfl | hne
    · rw [hflight] at hfilled
      simp only [Function.update_self]
      simpa using hfilled
    · simp only [Function.update_of_ne hne]
      simpa [hne.symm] using hfilled
  · simp only [send, Function.update_self]
  · rw [hsentOffset]
    omega

theorem round_ok (h : p.Ok request) (hmore : p.sentOffset < request.bytes) :
    (∃ exit p', p.round calls request = .exit exit p' ∧ exit.Ok request p') ∨
      ∃ p', p.round calls request = .go p' ∧ p'.Ok request ∧ p.sentOffset < p'.sentOffset := by
  have hround : ∀ i, (∃ exit p', round.sendRound calls request p i = .exit exit p' ∧
        exit.Ok request p') ∨
      ∃ p', round.sendRound calls request p i = .go p' ∧ p'.Ok request ∧
        p.sentOffset < p'.sentOffset := by
    intro i
    rw [round.sendRound]
    simp only
    split_ifs with hslot hsync hnext
    · exact Or.inl (abandon_ok hmore (h.more hmore) h.refill)
    · exact Or.inl ⟨.done, _, rfl,
        cleanup_ok (respond_error (h.more hmore) h.refill hsync) true⟩
    · rw [not_or, not_or] at hslot
      obtain ⟨hsend, hempty, hlt⟩ := send_ok (i := i) h hmore (by simpa using hslot.1)
        (by simpa using hslot.2.1) (by simpa using hslot.2.2)
      rcases submitNext_ok hsend hnext.1 hempty with
        hexit | ⟨p', heq, hp', hsent, -⟩
      · exact Or.inl hexit
      · exact Or.inr ⟨p', heq, hp', hsent ▸ hlt⟩
    · rw [not_or, not_or] at hslot
      obtain ⟨hsend, -, hlt⟩ := send_ok (i := i) h hmore (by simpa using hslot.1)
        (by simpa using hslot.2.1) (by simpa using hslot.2.2)
      exact Or.inr ⟨_, rfl, hsend, hlt⟩
  rw [round]
  cases hterminal : p.terminalError with
  | none => exact hround _
  | some terminal =>
    obtain ⟨offset, error⟩ := terminal
    simp only
    split_ifs with hdue
    · exact Or.inl ⟨.done, _, rfl, cleanup_ok
        (respond_error (h.more hmore) h.refill (h.terminal offset error hterminal)) false⟩
    · exact hround _

/-- **The loop ends**, with everything sent or handed to the serial path. -/
theorem loop_ok {fuel : ℕ} (h : p.Ok request) (hfuel : request.bytes - p.sentOffset < fuel) :
    ∃ exit p', loop calls request fuel p = some (exit, p') ∧ exit.Ok request p' := by
  induction fuel generalizing p with
  | zero => omega
  | succ fuel ih =>
    rw [loop]
    by_cases hmore : p.sentOffset < request.bytes
    · rw [if_pos hmore]
      rcases round_ok h hmore with ⟨exit, p', heq, hexit⟩ | ⟨p', heq, hp', hlt⟩
      · rw [heq]
        exact ⟨exit, p', rfl, hexit⟩
      · rw [heq]
        exact ih hp' (by omega)
    · rw [if_neg hmore]
      have hall : p.sentOffset = request.bytes :=
        le_antisymm (h.sent_le.trans h.submitted_le) (not_lt.mp hmore)
      have hdone : DtohExit.Ok request .done p := ⟨h.refill, h.all hall⟩
      exact ⟨.done, _, rfl, cleanup_ok hdone false⟩

end DtohPipeline

/-- The storage is freed when the stream was synchronized, or the event of every slot in flight. -/
theorem cleanupDtohPipeline_confirmed {slots : Fin 2 → DtohSlot} {synchronizeStream : Bool}
    (h : (cleanupDtohPipeline calls slots synchronizeStream).2 = true) :
    calls.cleanupStreamSynchronize = .success ∨
      ∀ i, (slots i).inFlight →
        (slots i).eventRecorded ∧ calls.cleanupEventSynchronize i = .success := by
  rw [cleanupDtohPipeline] at h
  split_ifs at h with hunproven
  · exact Or.inl (of_decide_eq_true h)
  · simp only at h
    split at h
    · exact Or.inl (of_decide_eq_true h)
    next hnone =>
      rw [not_or, not_exists] at hunproven
      refine Or.inr fun i hflight ↦ ?_
      have hrecorded : (slots i).eventRecorded := by
        have hi := hunproven.2 i
        simpa [hflight] using hi
      refine ⟨hrecorded, ?_⟩
      have hmem : ∀ i : Fin 2, i ∈ List.finRange 2 := by decide
      have hi := List.find?_eq_none.mp hnone i (hmem i)
      simpa [hflight, hrecorded] using hi

/-! ## The whole request -/

variable (calls) in
theorem copyDtohPipelined_ok (hpos : 0 < request.bytes) :
    ∃ exit p, copyDtohPipelined calls request = some (exit, p) ∧ exit.Ok request p := by
  have hstart : DtohPipeline.Ok request {} := by
    refine ⟨rfl, le_rfl, hpos.le, fun i hflight ↦ ?_, fun _ _ hterminal ↦ ?_, fun _ rest hrest ↦ ?_,
      fun hzero ↦ absurd hzero hpos.ne, fun before slot offset after hsplit ↦ ?_, fun i ↦ rfl⟩
    · exact absurd hflight Bool.false_ne_true
    · exact absurd hterminal (by simp)
    · exact hrest
    · exact absurd hsplit (by simp)
  have hserial : DtohExit.Ok request (.fallback 0) {} :=
    ⟨hstart.refill, hpos, hstart.more hpos⟩
  rw [copyDtohPipelined]
  split_ifs
  · exact ⟨_, _, rfl, hserial⟩
  · exact ⟨_, _, rfl, DtohPipeline.cleanup_ok hserial false⟩
  · rcases DtohPipeline.prime_ok (List.finRange 2) hstart (by decide)
      (fun i _ ↦ rfl) with ⟨exit, p, heq, hexit⟩ | ⟨p, heq, hp⟩
    · rw [heq]
      exact ⟨exit, p, rfl, hexit⟩
    · rw [heq]
      exact DtohPipeline.loop_ok hp (by omega)

/-- **The server.** Whatever its calls return, it answers, with a sequence as it should be. -/
theorem handleManualCuMemcpyDtoH_v2_spec (calls : DtohCalls) (request : DtohRequest) :
    ∃ events, handleManualCuMemcpyDtoH_v2 calls request = some events ∧
      ChunkStream request 0 (responses events) ∧ RefillSafe events := by
  have hnil : RefillSafe [] := fun before slot offset after hsplit ↦ absurd hsplit (by simp)
  rw [handleManualCuMemcpyDtoH_v2]
  by_cases hlarge : dtohPipelineMinBytes ≤ request.bytes
  · rw [if_pos hlarge]
    have hpos : 0 < request.bytes := lt_of_lt_of_le (by decide) hlarge
    obtain ⟨exit, p, heq, hrefill, hexit⟩ := copyDtohPipelined_ok calls hpos
    rw [heq]
    cases exit with
    | done => exact ⟨p.events, rfl, hexit, hrefill⟩
    | fallback offset =>
      obtain ⟨events, hserial, hstream, hevents⟩ :=
        copyDtohSerial_spec calls hexit.1.le
      refine ⟨p.events ++ events, ?_, ?_, hrefill.append_serial hevents⟩
      · simp only [hserial]
        rfl
      · rw [responses_append]
        exact hexit.2 _ hstream
  · rw [if_neg hlarge]
    obtain ⟨events, hserial, hstream, hevents⟩ :=
      copyDtohSerial_spec calls (Nat.zero_le request.bytes)
    exact ⟨events, hserial, hstream, by simpa using hnil.append_serial hevents⟩

/-! ## A copy without a failure

When the calls of the pipeline succeed, round `k` sends chunk `k` from the slot `k % 2` and fills
the slot with chunk `k + 2`. Between two rounds a window of chunks is in flight, which begins at the
next one to be sent; it is one chunk wide in the middle of a round. The serial path is not
entered. -/

/-- The calls of the pipeline succeed. -/
structure DtohCalls.Succeed (calls : DtohCalls) : Prop where
  memAllocHost : calls.memAllocHost = .success
  eventCreate : ∀ i, calls.eventCreate i = .success
  memcpyDtoHAsync : ∀ offset, calls.memcpyDtoHAsync offset = .success
  eventRecord : ∀ offset, calls.eventRecord offset = .success
  eventSynchronize : ∀ offset, calls.eventSynchronize offset = .success

/-- An event of a copy without a failure: what is sent is a chunk in a slot. -/
def DtohEvent.Delivers : DtohEvent → Prop
  | respond none _ => False
  | respond (some _) response => response.result = .success
  | _ => True

/-- A slot holds the chunk at an offset, with its event. -/
def DtohSlot.Holds (slot : DtohSlot) (request : DtohRequest) (offset : ℕ) : Prop :=
  slot.inFlight = true ∧ slot.eventRecorded = true ∧ slot.offset = offset ∧
    slot.bytes = request.chunkBytes offset

namespace DtohPipeline

variable {p : DtohPipeline} {k width : ℕ}

theorem slotIndex_mul (j : ℕ) :
    slotIndex (j * compressBlockBytes) = ⟨j % 2, Nat.mod_lt _ (by decide)⟩ := by
  rw [slotIndex]
  simp only [Nat.mul_div_cancel j compressBlockBytes_pos]

theorem slotIndex_mul_add_two (j : ℕ) :
    slotIndex ((j + 2) * compressBlockBytes) = slotIndex (j * compressBlockBytes) := by
  rw [slotIndex_mul, slotIndex_mul]
  exact Fin.ext (Nat.add_mod_right j 2)

theorem slotIndex_mul_succ_ne (j : ℕ) :
    slotIndex ((j + 1) * compressBlockBytes) ≠ slotIndex (j * compressBlockBytes) := by
  rw [slotIndex_mul, slotIndex_mul, Ne, Fin.ext_iff]
  show ¬ (j + 1) % 2 = j % 2
  omega

/-- The end of the chunk at a multiple of the chunk size. -/
theorem min_mul_add_chunkBytes {j : ℕ} (h : j * compressBlockBytes < request.bytes) :
    j * compressBlockBytes + request.chunkBytes (j * compressBlockBytes)
      = min request.bytes ((j + 1) * compressBlockBytes) := by
  rw [DtohRequest.chunkBytes, Nat.succ_mul]
  omega

variable (request) in
/-- So many chunks from chunk `k` on are in flight, and those before have been sent. -/
structure Steady (k width : ℕ) (p : DtohPipeline) : Prop where
  recorded : p.eventRecordFailed = false
  terminal : p.terminalError = none
  sent : p.sentOffset = min request.bytes (k * compressBlockBytes)
  submitted : p.submittedOffset = min request.bytes ((k + width) * compressBlockBytes)
  held : ∀ j, k ≤ j → j < k + width → j * compressBlockBytes < request.bytes →
    (p.slots (slotIndex (j * compressBlockBytes))).Holds request (j * compressBlockBytes)
  events : ∀ event ∈ p.events, event.Delivers

theorem delivers_concat {events : List DtohEvent} {event : DtohEvent}
    (h : ∀ e ∈ events, e.Delivers) (hevent : event.Delivers) :
    ∀ e ∈ events ++ [event], e.Delivers := by
  intro e he
  rcases List.mem_append.mp he with he | he
  · exact h e he
  · exact List.mem_singleton.mp he ▸ hevent

theorem Steady.widen (h : p.Steady request k width)
    (hall : request.bytes ≤ (k + width) * compressBlockBytes) :
    p.Steady request k (width + 1) := by
  have hwider : (k + width) * compressBlockBytes ≤ (k + (width + 1)) * compressBlockBytes :=
    Nat.mul_le_mul_right _ (by omega)
  refine ⟨h.recorded, h.terminal, h.sent, ?_, fun j hj hlt hmore ↦ ?_, h.events⟩
  · rw [h.submitted]
    omega
  · refine h.held j hj (lt_of_not_ge fun hle ↦ ?_) hmore
    exact absurd hmore (not_lt.mpr (hall.trans (Nat.mul_le_mul_right _ hle)))

/-- The next chunk is submitted to its slot, which is not one of the window. -/
theorem Steady.submitNext (hcalls : calls.Succeed) (h : p.Steady request k width)
    (hwidth : width ≤ 1) (hmore : (k + width) * compressBlockBytes < request.bytes) :
    ∃ p', p.submitNext calls request (slotIndex ((k + width) * compressBlockBytes)) = .go p' ∧
      p'.Steady request k (width + 1) := by
  have hoffset : p.submittedOffset = (k + width) * compressBlockBytes := by
    rw [h.submitted, min_eq_right hmore.le]
  have hgoes : ¬ p.eventRecordFailed = true := by simp [h.recorded]
  rw [DtohPipeline.submitNext, submit]
  simp only [hcalls.memcpyDtoHAsync, hcalls.eventRecord, hgoes, ne_eq, not_true_eq_false,
    if_false, Function.update_self]
  refine ⟨_, rfl, rfl, h.terminal, h.sent, ?_, fun j hj hlt hlast ↦ ?_,
    delivers_concat h.events trivial⟩
  · simp only [hoffset]
    exact min_mul_add_chunkBytes hmore
  · rcases Nat.lt_succ_iff_lt_or_eq.mp (Nat.add_succ k width ▸ hlt) with hlt | rfl
    · have hne : slotIndex (j * compressBlockBytes)
          ≠ slotIndex ((k + width) * compressBlockBytes) := by
        obtain rfl : width = 1 := by omega
        obtain rfl : j = k := by omega
        exact (slotIndex_mul_succ_ne j).symm
      simp only [Function.update_of_ne hne]
      exact h.held j hj hlt hlast
    · simp only [Function.update_self]
      exact ⟨rfl, rfl, hoffset, by rw [hoffset]; rfl⟩

theorem Steady.send (h : p.Steady request k (width + 1)) (hwidth : width ≤ 1)
    (hmore : k * compressBlockBytes < request.bytes) :
    (p.send request (slotIndex (k * compressBlockBytes))).Steady request (k + 1) width := by
  obtain ⟨-, -, -, hbytes⟩ := h.held k le_rfl (by omega) hmore
  refine ⟨h.recorded, h.terminal, ?_, ?_, fun j hj hlt hlast ↦ ?_,
    delivers_concat h.events rfl⟩
  · show p.sentOffset + (p.slots (slotIndex (k * compressBlockBytes))).bytes = _
    rw [hbytes, h.sent, min_eq_right hmore.le, min_mul_add_chunkBytes hmore]
  · show p.submittedOffset = _
    rw [h.submitted, Nat.add_assoc, Nat.add_comm 1 width]
  · obtain rfl : j = k + 1 := by omega
    simp only [DtohPipeline.send, Function.update_of_ne (slotIndex_mul_succ_ne k)]
    exact h.held (k + 1) (by omega) (by omega) hlast

/-- **One round** sends the first chunk of the window and fills its slot again. -/
theorem Steady.round (hcalls : calls.Succeed) (h : p.Steady request k 2)
    (hmore : k * compressBlockBytes < request.bytes) :
    ∃ p', p.round calls request = .go p' ∧ p'.Steady request (k + 1) 2 := by
  have hsent : p.sentOffset = k * compressBlockBytes := by rw [h.sent, min_eq_right hmore.le]
  obtain ⟨hflight, hrecorded, hoffset, -⟩ := h.held k le_rfl (by omega) hmore
  have hsend := h.send le_rfl hmore
  have hready : ¬ ((!(p.slots (slotIndex p.sentOffset)).inFlight) = true ∨
      (!(p.slots (slotIndex p.sentOffset)).eventRecorded) = true ∨
      (p.slots (slotIndex p.sentOffset)).offset ≠ p.sentOffset) := by
    rw [hsent]
    simp [hflight, hrecorded, hoffset]
  rw [DtohPipeline.round, h.terminal]
  simp only
  rw [round.sendRound]
  simp only
  rw [if_neg hready, if_neg (not_not_intro (hcalls.eventSynchronize _)), hsent]
  by_cases hnext : (k + 1 + 1) * compressBlockBytes < request.bytes
  · have hsubmitted : (p.send request (slotIndex (k * compressBlockBytes))).submittedOffset
        < request.bytes := by
      rw [hsend.submitted, min_eq_right hnext.le]
      exact hnext
    obtain ⟨p', heq, hp'⟩ := hsend.submitNext hcalls le_rfl hnext
    refine ⟨p', ?_, hp'⟩
    rw [if_pos ⟨hsubmitted, Option.isNone_iff_eq_none.mpr hsend.terminal⟩]
    rwa [Nat.add_assoc k 1 1, slotIndex_mul_add_two k] at heq
  · have hsubmitted : ¬ (p.send request (slotIndex (k * compressBlockBytes))).submittedOffset
        < request.bytes := by
      rw [hsend.submitted, min_eq_left (not_lt.mp hnext)]
      exact lt_irrefl _
    exact ⟨_, if_neg fun hgo ↦ hsubmitted hgo.1, hsend.widen (not_lt.mp hnext)⟩

theorem prime_steady (hcalls : calls.Succeed) (hlarge : dtohPipelineMinBytes ≤ request.bytes) :
    ∃ p, prime calls request (List.finRange 2) {} = .go p ∧ p.Steady request 0 2 := by
  have hblock := compressBlockBytes_pos
  have htwo : 2 * compressBlockBytes ≤ request.bytes := by
    rw [dtohPipelineMinBytes] at hlarge
    omega
  have hstart : ({} : DtohPipeline).Steady request 0 0 :=
    ⟨rfl, rfl, by simp, by simp, fun j _ hlt ↦ absurd hlt (by omega),
      fun event hevent ↦ absurd hevent (by simp)⟩
  obtain ⟨first, hfirst, hone⟩ := hstart.submitNext hcalls (by omega)
    (by rw [Nat.zero_add, Nat.zero_mul]; omega)
  obtain ⟨second, hsecond, htwo'⟩ := hone.submitNext hcalls le_rfl (by omega)
  have hzero : slotIndex ((0 + 0) * compressBlockBytes) = 0 := slotIndex_mul 0
  have hsucc : slotIndex ((0 + (0 + 1)) * compressBlockBytes) = 1 := slotIndex_mul 1
  rw [hzero] at hfirst
  rw [hsucc] at hsecond
  refine ⟨second, ?_, htwo'⟩
  have hempty : ¬ ({} : DtohPipeline).submittedOffset = request.bytes := by
    show ¬ 0 = request.bytes
    omega
  have hfull : ¬ first.submittedOffset = request.bytes := by
    rw [hone.submitted]
    omega
  have hslots : List.finRange 2 = [0, 1] := rfl
  rw [hslots, prime, if_neg hempty, hfirst]
  simp only [hone.terminal, Option.isSome_none, Bool.false_eq_true, if_false]
  rw [prime, if_neg hfull, hsecond]
  simp only [htwo'.terminal, Option.isSome_none, Bool.false_eq_true, if_false, prime]

theorem Steady.loop (hcalls : calls.Succeed) {fuel : ℕ} (h : p.Steady request k 2)
    (hfuel : request.bytes - p.sentOffset < fuel) :
    ∃ p', loop calls request fuel p = some (.done, p') ∧ ∀ event ∈ p'.events, event.Delivers := by
  induction fuel generalizing p k with
  | zero => omega
  | succ fuel ih =>
    rw [DtohPipeline.loop]
    by_cases hmore : k * compressBlockBytes < request.bytes
    · have hsent : p.sentOffset = k * compressBlockBytes := by rw [h.sent, min_eq_right hmore.le]
      obtain ⟨p', heq, hp'⟩ := h.round hcalls hmore
      have hprogress : p.sentOffset < p'.sentOffset := by
        have hblock := compressBlockBytes_pos
        rw [hp'.sent, hsent, Nat.succ_mul]
        omega
      rw [if_pos (hsent ▸ hmore), heq]
      exact ih hp' (by omega)
    · have hsent : p.sentOffset = request.bytes := by
        rw [h.sent, min_eq_left (not_lt.mp hmore)]
      rw [if_neg (hsent ▸ lt_irrefl _)]
      refine ⟨_, rfl, ?_⟩
      rw [cleanup]
      split_ifs
      · exact delivers_concat h.events trivial
      · exact h.events

end DtohPipeline

/-- When the calls of the pipeline succeed, a large copy is sent from the slots as a whole. -/
theorem handleManualCuMemcpyDtoH_v2_pipelined (hcalls : calls.Succeed)
    (hlarge : dtohPipelineMinBytes ≤ request.bytes) :
    ∃ events, handleManualCuMemcpyDtoH_v2 calls request = some events ∧
      ∀ event ∈ events, event.Delivers := by
  obtain ⟨p, hprime, hsteady⟩ := DtohPipeline.prime_steady hcalls hlarge
  obtain ⟨p', hloop, hevents⟩ :=
    hsteady.loop hcalls (Nat.lt_succ_of_le (Nat.sub_le request.bytes _))
  refine ⟨p'.events, ?_, hevents⟩
  have hcreated : ¬ ∃ i, calls.eventCreate i ≠ .success := by simp [hcalls.eventCreate]
  rw [handleManualCuMemcpyDtoH_v2, if_pos hlarge, copyDtohPipelined,
    if_neg (not_not_intro hcalls.memAllocHost), if_neg hcreated, hprime]
  simp only [hloop]

theorem result_of_delivers {offset : ℕ} {events : List DtohEvent} {dstHost dst : List UInt8}
    {result : CUresult} (hevents : ∀ event ∈ events, event.Delivers)
    (hstream : ChunkStream request offset (responses events)) (hoffset : offset ≤ request.bytes)
    (hloop : cuMemcpyDtoHLoop request offset dstHost (responses events) = some (result, dst, [])) :
    result = .success := by
  have hsucceed : ∀ response ∈ responses events, response.result = .success := by
    intro response hresponse
    obtain ⟨event, hevent, hsome⟩ := List.mem_filterMap.mp hresponse
    cases event with
    | respond slot response' =>
      obtain rfl := Option.some.inj hsome
      cases slot with
      | none => exact absurd (hevents _ hevent) id
      | some i => exact hevents _ hevent
    | submit slot offset => exact absurd hsome (by simp)
    | freeStorage => exact absurd hsome (by simp)
  generalize responses events = stream at hstream hloop hsucceed
  induction hstream generalizing dstHost with
  | error failed => exact absurd (hsucceed _ List.mem_cons_self) failed
  | last last =>
    rw [cuMemcpyDtoHLoop_chunk [] hoffset, if_neg last.not_gt] at hloop
    exact (Prod.mk.inj (Option.some.inj hloop)).1.symm
  | next more stream ih =>
    rw [cuMemcpyDtoHLoop_chunk _ hoffset, if_pos more] at hloop
    exact ih more.le hloop fun response hresponse ↦
      hsucceed response (List.mem_cons_of_mem _ hresponse)

/-- **Device-to-host copies.** For every byte count and device content and all outcomes of the CUDA
calls, the responses of the server are the chunks in order, up to the last one or to the first
error; no slot is filled again before what it held has been sent; and the client reads exactly these
responses, each to its end, and returns success only with the bytes of the device in its buffer. -/
theorem cuMemcpyDtoH_matches (calls : DtohCalls) (request : DtohRequest) (dstHost : List UInt8)
    (h : dstHost.length = request.bytes) :
    ∃ events result dst, handleManualCuMemcpyDtoH_v2 calls request = some events ∧
      ChunkStream request 0 (responses events) ∧ RefillSafe events ∧
      cuMemcpyDtoHLoop request 0 dstHost (responses events) = some (result, dst, []) ∧
      (result = .success → dst = request.device) := by
  obtain ⟨events, hevents, hstream, hrefill⟩ := handleManualCuMemcpyDtoH_v2_spec calls request
  obtain ⟨result, dst, hloop, hdst⟩ :=
    cuMemcpyDtoHLoop_chunkStream hstream (Nat.zero_le _) h rfl
  exact ⟨events, result, dst, hevents, hstream, hrefill, hloop, hdst⟩

def dtohCallsSucceed : DtohCalls where
  memAllocHost := .success
  eventCreate _ := .success
  memcpyDtoHAsync _ := .success
  eventRecord _ := .success
  eventSynchronize _ := .success
  cleanupEventSynchronize _ := .success
  cleanupStreamSynchronize := .success
  hostResize := true
  memcpyDtoH _ := .success
  unfinished _ := []

theorem dtohCallsSucceed_succeed : dtohCallsSucceed.Succeed :=
  ⟨rfl, fun _ ↦ rfl, fun _ ↦ rfl, fun _ ↦ rfl, fun _ ↦ rfl⟩

/-- Eight chunks and a byte: they are sent from the slots, and the copy succeeds. -/
theorem cuMemcpyDtoH_matches_nineChunks :
    ∃ request : DtohRequest, request.device = List.replicate (8 * compressBlockBytes + 1) 7 ∧
      ∃ events, handleManualCuMemcpyDtoH_v2 dtohCallsSucceed request = some events ∧
        (∀ event ∈ events, event.Delivers) ∧ RefillSafe events ∧
        cuMemcpyDtoHLoop request 0 (List.replicate (8 * compressBlockBytes + 1) 0)
            (responses events)
          = some (.success, List.replicate (8 * compressBlockBytes + 1) 7, []) := by
  let request : DtohRequest :=
    ⟨literalLz4, true, 2, List.replicate (8 * compressBlockBytes + 1) 7⟩
  have hbytes : request.bytes = 8 * compressBlockBytes + 1 := List.length_replicate
  obtain ⟨events, result, dst, hevents, hstream, hrefill, hloop, hdst⟩ :=
    cuMemcpyDtoH_matches dtohCallsSucceed request
      (List.replicate (8 * compressBlockBytes + 1) 0) (List.length_replicate.trans hbytes.symm)
  have hlong : 8 * compressBlockBytes ≤ request.bytes := hbytes ▸ Nat.le_succ _
  obtain ⟨events', hpipelined, hdelivers⟩ :=
    handleManualCuMemcpyDtoH_v2_pipelined dtohCallsSucceed_succeed hlong
  obtain rfl := Option.some.inj (hevents.symm.trans hpipelined)
  obtain rfl := result_of_delivers hdelivers hstream (Nat.zero_le _) hloop
  obtain rfl := hdst rfl
  exact ⟨request, rfl, events, hevents, hdelivers, hrefill, hloop⟩

end Lupine
