import Lupine.Foundation.Machine
import Lupine.Sidecar.TensorStreams

/-!
# The requests of the sidecar

The client of the sidecar sends a request, which is a header and the bytes of the tensors that it
announces, and reads a response of the same form before it sends the next. Between the two the
worker takes its turn. A turn that fails half-way is answered with an error, and the worker goes on
with whatever comes next in the pipe: had the turn left bytes of a tensor there, they would be read
as a request.

## What is left out

A result is the list of the values that `encode` meets in it, in that order; the lists, tuples and
dictionaries around them are not kept. What an operator does is given from outside.

## What is balanced

An operation is balanced if it has taken exactly the announced bytes off the pipe when it ends,
whichever way it ends. A turn is balanced if its operation is, and if the response announces the
bytes that are written behind it. The client reads what the response announces. So after every
request the pipes are empty, which is what being in step comes to.
-/

open Foundation

namespace Lupine

variable {torch : Torch}

/-- A tensor on the device, by the elements at its flat places. -/
structure CudaTensor where
  shape : List ℕ
  dtype : String
  contiguous : Bool := true
  element : ℕ → List UInt8

/-- What the worker keeps: `objects` and `next_handle`. -/
structure SidecarWorker where
  objects : ℕ → Option CudaTensor := fun _ ↦ none
  nextHandle : ℕ := 1

/-- A value in the result of an operator. A CPU tensor is valid if `_validate_cpu_result_tensor`
takes it; another value may be printable as JSON. -/
inductive ResultLeaf (torch : Torch) where
  | cpu (t : Tensor torch) (valid : Bool)
  | cuda (t : CudaTensor)
  | elsewhere
  | plain (printable : Bool)

inductive ReplyLeaf where
  | tensor (handle : ℕ) (shape : List ℕ) (dtype : String)
  | tensorData (stream : ℕ)
  | plain (printable : Bool)
  deriving DecidableEq, Repr

/-- A value that `json.dumps` takes. -/
def ReplyLeaf.printable : ReplyLeaf → Bool
  | plain printable => printable
  | _ => true

/-- A tensor behind a response, and the type that it is sent in. -/
inductive OutputTensor (torch : Torch) where
  | cpu (t : Tensor torch)
  | cuda (t : CudaTensor) (dtype : String)

/-- A request of `SidecarSession`. -/
inductive SidecarRequest (torch : Torch) where
  | ping
  | call (tensors : List (Tensor torch))
  | upload (t : Tensor torch) (dtype : String)
  | copyFromCpu (handle : ℕ) (t : Tensor torch)
  | download (handle : ℕ) (dtype : String)
  | release (handles : List ℕ)

/-- The request in a header, with the fields that the worker looks at. -/
inductive SidecarOp where
  | ping
  | call
  | upload (dtype : String)
  | copyFromCpu (handle : ℕ)
  | download (handle : ℕ) (dtype : String)
  | release (handles : List ℕ)
  deriving DecidableEq, Repr

structure RequestHeader where
  op : SidecarOp
  tensorStreams : List TensorDescription
  deriving DecidableEq, Repr

structure ResponseHeader where
  ok : Bool
  result : List ReplyLeaf
  tensorStreams : List TensorDescription
  deriving DecidableEq, Repr

namespace SidecarRequest

/-- `tensor_streams`. -/
def tensors : SidecarRequest torch → List (Tensor torch)
  | call tensors => tensors
  | upload t _ | copyFromCpu _ t => [t]
  | ping | download .. | release _ => []

def op : SidecarRequest torch → SidecarOp
  | ping => .ping
  | call _ => .call
  | upload _ dtype => .upload dtype
  | copyFromCpu handle _ => .copyFromCpu handle
  | download handle dtype => .download handle dtype
  | release handles => .release handles

def written (request : SidecarRequest torch) : List (SidecarToken RequestHeader) :=
  .line ⟨request.op, Tensor.descriptions request.tensors⟩
    :: tokens (Tensor.allBytes request.tensors)

end SidecarRequest

/-- What `_write_cuda_tensor` sends, or a CPU tensor as it is: the tensor that the client is to
get. -/
def OutputTensor.sent : OutputTensor torch → Tensor torch
  | cpu t => t
  | cuda t dtype =>
    { shape := t.shape
      dtype
      elements := (List.range t.shape.prod).map fun i ↦ torch.convert t.dtype dtype (t.element i)
      length_elements := by rw [List.length_map, List.length_range]
      length_element := by
        intro element helement
        obtain ⟨i, -, rfl⟩ := List.mem_map.mp helement
        exact torch.length_convert _ _ _ }

/-- The elements that arrived of a tensor, and the type that they were converted to. -/
structure Arrival where
  target : Option String
  elements : List (List UInt8)
  deriving DecidableEq, Repr

/-- What became of the elements of a tensor on their way, with the conversion that was asked for. -/
structure Transfer where
  source : List (List UInt8)
  arrived : List (List UInt8)
  conversion : Option (String × String)
  deriving DecidableEq, Repr

/-- What the transfer of a tensor should be. -/
def Transfer.Right (torch : Torch) (transfer : Transfer) : Prop :=
  transfer.arrived = match transfer.conversion with
    | none => transfer.source
    | some (source, target) => transfer.source.map (torch.convert source target)

def Arrival.transfer (t : Tensor torch) (arrival : Arrival) : Transfer :=
  ⟨t.elements, arrival.elements, arrival.target.map fun target ↦ (t.dtype, target)⟩

/-! ## The worker

An operation of `handle` ends with its result or an exception, and with the pipe as it has left
it. -/

structure TurnOutcome (torch : Torch) where
  /-- The memory for the first look at the announced streams. -/
  parses : Bool := true
  rooms : List StreamRoom := []
  cuda : CudaRoom := {}
  /-- What `copy_` makes of a destination of another shape. -/
  copied : Option CudaTensor := none
  /-- The result of `func`, unless something fails on the way to it. -/
  result : Option (List (ResultLeaf torch)) := none
  /-- What `func` does to the tensors of the worker. -/
  effect : (ℕ → Option CudaTensor) → ℕ → Option CudaTensor := id
  /-- The memory for the description of the response's streams. -/
  describes : Bool := true
  /-- Which chunks of which response streams CUDA copies. -/
  copies : ℕ → ℕ → Bool := fun _ _ ↦ true

/-- How `handle` ends. -/
structure HandledTurn (torch : Torch) where
  worker : SidecarWorker
  outputs : List (OutputTensor torch) := []
  result : Except PyFailure (List ReplyLeaf)
  pipe : List (List (SidecarToken RequestHeader))
  /-- What arrived of the tensors of the request. -/
  arrived : List Arrival := []

namespace SidecarWorker

variable (worker : SidecarWorker)

/-- `store`, for a CUDA tensor. -/
def storeCuda (t : CudaTensor) : SidecarWorker × ReplyLeaf :=
  ({ objects := Function.update worker.objects worker.nextHandle (some t)
     nextHandle := worker.nextHandle + 1 }, .tensor worker.nextHandle t.shape t.dtype)

/-- `encode`, over the values of a result; it may fail after some tensors are stored. -/
def encode : SidecarWorker → List (ResultLeaf torch) → List (OutputTensor torch) →
    SidecarWorker × List (OutputTensor torch) × Option (List ReplyLeaf)
  | worker, [], outputs => (worker, outputs, some [])
  | worker, .cpu t valid :: leaves, outputs =>
    if valid then
      let (worker', outputs', replies) := encode worker leaves (outputs ++ [.cpu t])
      (worker', outputs', replies.map (.tensorData outputs.length :: ·))
    else (worker, outputs, none)
  | worker, .cuda t :: leaves, outputs =>
    let (stored, reply) := worker.storeCuda t
    let (worker', outputs', replies) := encode stored leaves outputs
    (worker', outputs', replies.map (reply :: ·))
  | worker, .elsewhere :: _, outputs => (worker, outputs, none)
  | worker, .plain printable :: leaves, outputs =>
    let (worker', outputs', replies) := encode worker leaves outputs
    (worker', outputs', replies.map (.plain printable :: ·))

/-- `release`. -/
def release (handles : List ℕ) : SidecarWorker :=
  { worker with objects := fun h ↦ if h ∈ handles then none else worker.objects h }

/-- A destination after so many elements were written to it. -/
def overwrite (handle : ℕ) (t : CudaTensor) (done : List (List UInt8)) : SidecarWorker :=
  { worker with
    objects := Function.update worker.objects handle
      (some { t with element := fun i ↦ if i < done.length then done.getD i [] else t.element i }) }

variable (o : TurnOutcome torch) (description : TensorDescription)
  (pipe : List (List (SidecarToken RequestHeader)))

/-- The operation fails before any of its only stream is read. -/
def refuse : HandledTurn torch :=
  let (result, pipe) := failDiscarding o.cuda.discard description.nbytes pipe
  { worker, result, pipe }

/-- `handle`, for `upload`. -/
def upload (dtype : String) : HandledTurn torch :=
  if torch.known dtype = false then worker.refuse o description pipe
  else
    match readCudaTensor torch o.cuda description dtype false pipe with
    | (done, .ok (), pipe) =>
      let (worker, reply) := worker.storeCuda
        ⟨description.shape, dtype, true, fun i ↦ done.getD i []⟩
      { worker, result := .ok [reply], pipe, arrived := [⟨some dtype, done⟩] }
    | (_, .error failure, pipe) => { worker, result := .error failure, pipe }

/-- `handle`, for `copy_from_cpu`. -/
def copyFromCpu (handle : ℕ) : HandledTurn torch :=
  match worker.objects handle with
  | none => worker.refuse o description pipe
  | some t =>
    if t.shape = description.shape ∧ t.contiguous = true then
      match readCudaTensor torch o.cuda description t.dtype true pipe with
      | (done, .ok (), pipe) =>
        { worker := worker.overwrite handle t done, result := .ok [.plain true], pipe
          arrived := [⟨some t.dtype, done⟩] }
      | (done, .error failure, pipe) =>
        { worker := worker.overwrite handle t done, result := .error failure, pipe }
    else
      match readCudaTensor torch o.cuda description description.dtype false pipe with
      | (done, .ok (), pipe) =>
        match o.copied with
        | some t =>
          { worker := { worker with objects := Function.update worker.objects handle (some t) }
            result := .ok [.plain true], pipe, arrived := [⟨some description.dtype, done⟩] }
        | none => { worker, result := .error .exception, pipe }
      | (_, .error failure, pipe) => { worker, result := .error failure, pipe }

/-- `handle`, for an operation on the tensors that `receive_tensors` has returned. -/
def operate : SidecarOp → SidecarWorker × List (OutputTensor torch) × Option (List ReplyLeaf)
  | .call =>
    let worker := { worker with objects := o.effect worker.objects }
    match o.result with
    | some leaves => encode worker leaves []
    | none => (worker, [], none)
  | .download handle dtype =>
    match worker.objects handle with
    | some t =>
      if t.contiguous = true ∧ torch.known dtype = true then
        (worker, [.cuda t dtype], some [.tensorData 0])
      else (worker, [], none)
    | none => (worker, [], none)
  | .release handles => (worker.release handles, [], some [.plain true])
  | _ => (worker, [], some [.plain true])

/-- `handle`, for all other operations. -/
def receive (header : RequestHeader) : HandledTurn torch :=
  match receiveTensors torch (fun i ↦ o.rooms.getD i {}) header.tensorStreams 0 pipe with
  | (.ok arrived, pipe) =>
    match worker.operate o header.op with
    | (worker, outputs, some replies) =>
      { worker, outputs, result := .ok replies, pipe, arrived := arrived.map (⟨none, ·⟩) }
    | (worker, outputs, none) => { worker, outputs, result := .error .exception, pipe }
  | (.error failure, pipe) => { worker, result := .error failure, pipe }

/-- `handle`. -/
def handle (header : RequestHeader) : HandledTurn torch :=
  match header.op, header.tensorStreams with
  | .upload dtype, description :: _ => worker.upload o description pipe dtype
  | .copyFromCpu handle, description :: _ => worker.copyFromCpu o description pipe handle
  | _, _ => worker.receive o pipe header

/-- How a turn ends, unless it stops the worker. -/
structure Turn (torch : Torch) where
  worker : SidecarWorker
  pipe : List (List (SidecarToken RequestHeader))
  header : ResponseHeader
  outputs : List (OutputTensor torch)
  arrived : List Arrival

/-- The streams of the request are described as the worker understands it. -/
def accepts (header : RequestHeader) : Prop :=
  o.parses = true ∧
    (∀ description ∈ header.tensorStreams, torch.known description.dtype = true ∧
      description.nbytes = description.shape.prod * torch.elementSize description.dtype) ∧
    match header.op with
    | .upload _ | .copyFromCpu _ => header.tensorStreams.length = 1
    | _ => True

instance (header : RequestHeader) : Decidable (accepts o header) := by
  unfold accepts
  cases header.op <;> infer_instance

/-- The header of the response; an error if the result or the tensors cannot be described. -/
def respond (handled : HandledTurn torch) : Option (Turn torch) :=
  match handled.result with
  | .ok replies =>
    if o.describes = true ∧ replies.all ReplyLeaf.printable = true then
      some ⟨handled.worker, handled.pipe,
        ⟨true, replies, Tensor.descriptions (handled.outputs.map OutputTensor.sent)⟩,
        handled.outputs, handled.arrived⟩
    else some ⟨handled.worker, handled.pipe, ⟨false, [], []⟩, [], []⟩
  | .error .exception => some ⟨handled.worker, handled.pipe, ⟨false, [], []⟩, [], []⟩
  | .error .tensorStreamError => none

/-- A turn of `main`, up to the writing of the response. -/
def turn (pipe : List (List (SidecarToken RequestHeader))) : Option (Turn torch) :=
  match readSome 1 pipe with
  | ([.line header], pipe) =>
    if accepts o header then respond o (worker.handle o pipe header) else none
  | _ => none

end SidecarWorker

/-! ## The session

The client waits for the response, so the steps of a request are three, in this order. -/

inductive SessionPhase (torch : Torch) where
  | idle
  | sent (request : SidecarRequest torch)
  | answered (outputs : List (OutputTensor torch))

/-- A session, with its worker and the two pipes. -/
structure SidecarState (torch : Torch) where
  /-- `_proc` is there. -/
  alive : Bool := true
  toWorker : List (SidecarToken RequestHeader) := []
  toClient : List (SidecarToken ResponseHeader) := []
  phase : SessionPhase torch := .idle
  worker : SidecarWorker := {}
  /-- The tensors that arrived, on either side, in calls that succeeded. -/
  transfers : List Transfer := []

/-- What happens next: the client writes a request, the worker takes its turn, the client reads the
response. The pipes are cut in any way, and writes are accepted in any way. -/
inductive SidecarAction (torch : Torch) where
  | send (request : SidecarRequest torch) (printable : Bool) (accepted : List ℕ)
  | turn (outcome : TurnOutcome torch) (sizes accepted : List ℕ)
  | receive (rooms : List StreamRoom) (sizes : List ℕ)

/-- The elements that a response tensor is made from, as a transfer of what the client read. -/
def OutputTensor.transfer (output : OutputTensor torch) (elements : List (List UInt8)) : Transfer :=
  match output with
  | .cpu t => ⟨t.elements, elements, none⟩
  | .cuda t dtype =>
    ⟨(List.range t.shape.prod).map t.element, elements, some (t.dtype, dtype)⟩

/-- `_write_tensor` or `_write_cuda_tensor`. -/
def OutputTensor.write (copies : ℕ → Bool) : OutputTensor torch → Option (List UInt8)
  | cpu t => some t.bytes
  | cuda t dtype =>
    writeChunks torch t.dtype dtype copies t.shape.prod 0 ((List.range t.shape.prod).map t.element)

def writeOutputs (copies : ℕ → ℕ → Bool) : List (OutputTensor torch) → ℕ → Option (List UInt8)
  | [], _ => some []
  | output :: outputs, i =>
    (output.write (copies i)).bind fun bytes ↦
      (writeOutputs copies outputs (i + 1)).map (bytes ++ ·)

def decodeStreams (torch : Torch) (rooms : List StreamRoom) :
    List TensorDescription → ℕ → List (List (SidecarToken ResponseHeader)) →
      Option (List (List (List UInt8))) × List (List (SidecarToken ResponseHeader))
  | [], _, pipe => (some [], pipe)
  | description :: descriptions, i, pipe =>
    match decodeCpuTensor torch (rooms.getD i {}) description pipe with
    | (.ok elements, pipe) =>
      match decodeStreams torch rooms descriptions (i + 1) pipe with
      | (some tensors, pipe) => (some (elements :: tensors), pipe)
      | (none, pipe) => (none, pipe)
    | (.error _, pipe) => (none, pipe)

namespace SidecarState

variable (st : SidecarState torch)

/-- The client terminates the worker, or the worker has ended. -/
def terminated : SidecarState torch := { st with alive := false, phase := .idle }

/-- `_send`, up to the response. -/
def send (request : SidecarRequest torch) (printable : Bool) (accepted : List ℕ) :
    Option (SidecarState torch) :=
  match st.phase with
  | .idle =>
    if st.alive = true ∧ printable = true then
      match writeAll accepted request.written with
      | some written =>
        some { st with toWorker := st.toWorker ++ written, phase := .sent request }
      | none => some st.terminated
    else some st
  | _ => none

/-- A turn of `main`. -/
def turn (o : TurnOutcome torch) (sizes accepted : List ℕ) : Option (SidecarState torch) :=
  match st.phase with
  | .sent request =>
    match st.worker.turn o (cut sizes st.toWorker) with
    | some turn =>
      match (writeOutputs o.copies turn.outputs 0).bind fun bytes ↦
          writeAll accepted (.line turn.header :: tokens bytes) with
      | some written =>
        some { st with
          toWorker := turn.pipe.flatten
          toClient := st.toClient ++ written
          phase := .answered turn.outputs
          worker := turn.worker
          transfers := st.transfers ++ List.zipWith Arrival.transfer request.tensors turn.arrived }
      | none => some st.terminated
    | none => some st.terminated
  | _ => none

/-- `_send`, from the response on. -/
def receive (rooms : List StreamRoom) (sizes : List ℕ) : Option (SidecarState torch) :=
  match st.phase with
  | .answered outputs =>
    match readSome 1 (cut sizes st.toClient) with
    | ([.line header], pipe) =>
      match decodeStreams torch rooms header.tensorStreams 0 pipe with
      | (some tensors, pipe) =>
        some { st with
          toClient := pipe.flatten
          phase := .idle
          transfers := st.transfers ++ List.zipWith OutputTensor.transfer outputs tensors }
      | (none, _) => some st.terminated
    | _ => some st.terminated
  | _ => none

def step : SidecarAction torch → Option (SidecarState torch)
  | .send request printable accepted => st.send request printable accepted
  | .turn o sizes accepted => st.turn o sizes accepted
  | .receive rooms sizes => st.receive rooms sizes

end SidecarState

def sidecarSession (torch : Torch) : Machine (SidecarState torch) (SidecarAction torch) where
  step := SidecarState.step

/-! ## What is right

Memory is what can be missing at the wrong time: for the description that is looked at again, and
for the buffer that bytes are thrown away through. -/

/-- While the worker lives, nothing is in the pipes but what is next to be read: the request, until
the turn has taken all of it; then one header and the bytes that it announces, until the client has
read them. -/
structure SidecarState.InStep (st : SidecarState torch) : Prop where
  idle : st.alive = true → st.phase = .idle → st.toWorker = [] ∧ st.toClient = []
  sent : ∀ request, st.phase = .sent request → st.toWorker = request.written ∧ st.toClient = []
  answered : ∀ outputs, st.phase = .answered outputs → st.toWorker = [] ∧
    ∃ header bytes, st.toClient = .line header :: tokens bytes ∧
      bytes.length = (header.tensorStreams.map TensorDescription.nbytes).sum
  transfers : ∀ transfer ∈ st.transfers, transfer.Right torch

/-- There is memory for the failures of a turn: the element of every description that is looked at
again, and the buffer of every stream that is thrown away. -/
def SidecarAction.Roomy : SidecarAction torch → Prop
  | turn o _ _ => o.cuda.toStreamRoom.Enough ∧ ∀ room ∈ o.rooms, room.Enough
  | _ => True

instance SidecarAction.decidableRoomy : ∀ action : SidecarAction torch, Decidable action.Roomy
  | .turn .. => inferInstanceAs (Decidable (_ ∧ _))
  | .send .. | .receive .. => inferInstanceAs (Decidable True)

/-! ## A turn takes its request exactly

An operation that fails early discards what it has not read, and one that has read everything has
nothing to discard. -/

/-- An operation has taken what is announced of these tensors off the pipe, and answers. -/
structure HandledTurn.Balanced (handled : HandledTurn torch) (ts : List (Tensor torch))
    (back : List (SidecarToken RequestHeader)) : Prop where
  pipe : handled.pipe.flatten = back
  answers : handled.result ≠ .error .tensorStreamError
  arrived : ∀ transfer ∈ List.zipWith Arrival.transfer ts handled.arrived, transfer.Right torch

namespace SidecarWorker

variable {worker : SidecarWorker} {o : TurnOutcome torch} {t : Tensor torch}
  {pipe : List (List (SidecarToken RequestHeader))} {back : List (SidecarToken RequestHeader)}

theorem balanced_of_exception {ts : List (Tensor torch)} {handled : HandledTurn torch}
    (hpipe : handled.pipe.flatten = back) (hresult : handled.result = .error .exception)
    (harrived : handled.arrived = []) : handled.Balanced ts back := by
  refine ⟨hpipe, fun h ↦ (nomatch hresult.symm.trans h), ?_⟩
  rw [harrived, List.zipWith_nil_right]
  exact fun transfer h ↦ (nomatch h)

/-- One tensor that arrived, converted. -/
theorem right_of_converted (t : Tensor torch) (dtype : String) :
    ∀ transfer ∈ List.zipWith Arrival.transfer [t] [⟨some dtype, t.converted dtype⟩],
      transfer.Right torch := by
  intro transfer h
  obtain rfl := List.mem_singleton.mp h
  rfl

theorem refuse_balanced (hroom : o.cuda.toStreamRoom.Enough)
    (hpipe : pipe.flatten = tokens t.bytes ++ back) :
    (worker.refuse o (t.streamMetadata t.dtype) pipe).Balanced [t] back := by
  have hsize : (t.streamMetadata t.dtype).nbytes = t.bytes.length := t.length_bytes.symm
  obtain ⟨rest, hfail, hrest⟩ := failDiscarding_of_room (α := List ReplyLeaf) hpipe
  rw [refuse, hroom.2, hsize, hfail]
  exact balanced_of_exception hrest rfl rfl

theorem upload_balanced (hroom : o.cuda.toStreamRoom.Enough) (dtype : String)
    (hpipe : pipe.flatten = tokens t.bytes ++ back) :
    (worker.upload o (t.streamMetadata t.dtype) pipe dtype).Balanced [t] back := by
  rw [upload]
  split_ifs
  · exact refuse_balanced hroom hpipe
  obtain ⟨rest, hrest, hok | ⟨done, hfail⟩⟩ := readCudaTensor_spec hroom t dtype false hpipe
  · rw [hok]
    exact ⟨hrest, (nomatch ·), right_of_converted t dtype⟩
  · rw [hfail]
    exact balanced_of_exception hrest rfl rfl

theorem copyFromCpu_balanced (hroom : o.cuda.toStreamRoom.Enough) (handle : ℕ)
    (hpipe : pipe.flatten = tokens t.bytes ++ back) :
    (worker.copyFromCpu o (t.streamMetadata t.dtype) pipe handle).Balanced [t] back := by
  rw [copyFromCpu]
  split
  · exact refuse_balanced hroom hpipe
  · next destination _ =>
    split_ifs
    · obtain ⟨rest, hrest, hok | ⟨done, hfail⟩⟩ :=
        readCudaTensor_spec hroom t destination.dtype true hpipe
      · rw [hok]
        exact ⟨hrest, (nomatch ·), right_of_converted t destination.dtype⟩
      · rw [hfail]
        exact balanced_of_exception hrest rfl rfl
    · obtain ⟨rest, hrest, hok | ⟨done, hfail⟩⟩ := readCudaTensor_spec hroom t t.dtype false hpipe
      · rw [show (t.streamMetadata t.dtype).dtype = t.dtype from rfl, hok]
        simp only
        split
        · exact ⟨hrest, (nomatch ·), right_of_converted t t.dtype⟩
        · exact balanced_of_exception hrest rfl rfl
      · rw [show (t.streamMetadata t.dtype).dtype = t.dtype from rfl, hfail]
        exact balanced_of_exception hrest rfl rfl

theorem right_of_received (ts : List (Tensor torch)) :
    ∀ transfer ∈ List.zipWith Arrival.transfer ts ((ts.map Tensor.elements).map (⟨none, ·⟩)),
      transfer.Right torch := by
  intro transfer h
  rw [List.map_map, List.zipWith_map_right, List.zipWith_self] at h
  obtain ⟨t, -, rfl⟩ := List.mem_map.mp h
  rfl

theorem receive_balanced (hrooms : ∀ room ∈ o.rooms, room.Enough) (op : SidecarOp)
    (ts : List (Tensor torch)) (hpipe : pipe.flatten = tokens (Tensor.allBytes ts) ++ back) :
    (worker.receive o pipe ⟨op, Tensor.descriptions ts⟩).Balanced ts back := by
  have hgetD : ∀ i, (o.rooms.getD i {}).Enough := by
    intro i
    rw [List.getD_eq_getElem?_getD]
    rcases hi : o.rooms[i]? with - | room
    · exact ⟨rfl, rfl⟩
    · exact hrooms room (List.mem_of_getElem? hi)
  obtain ⟨rest, hrest, hok | hfail⟩ := receiveTensors_spec hgetD ts 0 hpipe
  · rw [receive, hok]
    simp only
    split
    · exact ⟨hrest, (nomatch ·), right_of_received ts⟩
    · exact balanced_of_exception hrest rfl rfl
  · rw [receive, hfail]
    exact balanced_of_exception hrest rfl rfl

/-- **Every operation takes its tensors exactly**, whether it succeeds or not. -/
theorem handle_balanced (hcuda : o.cuda.toStreamRoom.Enough)
    (hrooms : ∀ room ∈ o.rooms, room.Enough) (request : SidecarRequest torch)
    (hpipe : pipe.flatten = tokens (Tensor.allBytes request.tensors) ++ back) :
    (worker.handle o pipe ⟨request.op, Tensor.descriptions request.tensors⟩).Balanced
      request.tensors back := by
  have hone : ∀ t : Tensor torch, Tensor.allBytes [t] = t.bytes := fun t ↦ List.append_nil _
  rcases request with - | ts | ⟨t, dtype⟩ | ⟨handle, t⟩ | ⟨handle, dtype⟩ | handles
  · exact receive_balanced hrooms .ping [] hpipe
  · exact receive_balanced hrooms .call ts hpipe
  · exact upload_balanced hcuda dtype (hone t ▸ hpipe)
  · exact copyFromCpu_balanced hcuda handle (hone t ▸ hpipe)
  · exact receive_balanced hrooms (.download handle dtype) [] hpipe
  · exact receive_balanced hrooms (.release handles) [] hpipe

/-- What a turn leaves and answers. -/
structure Turn.Balanced (turn : Turn torch) (ts : List (Tensor torch))
    (back : List (SidecarToken RequestHeader)) : Prop where
  pipe : turn.pipe.flatten = back
  header : turn.header.tensorStreams = Tensor.descriptions (turn.outputs.map OutputTensor.sent)
  arrived : ∀ transfer ∈ List.zipWith Arrival.transfer ts turn.arrived, transfer.Right torch

theorem Turn.balanced_of_error {handled : HandledTurn torch} {ts : List (Tensor torch)}
    (h : handled.Balanced ts back) :
    Turn.Balanced (⟨handled.worker, handled.pipe, ⟨false, [], []⟩, [], []⟩ : Turn torch) ts
      back := by
  refine ⟨h.pipe, rfl, ?_⟩
  rw [List.zipWith_nil_right]
  exact fun transfer h ↦ (nomatch h)

theorem respond_balanced {handled : HandledTurn torch} {ts : List (Tensor torch)}
    {turn : Turn torch}
    (h : handled.Balanced ts back) (hturn : respond o handled = some turn) :
    turn.Balanced ts back := by
  rw [respond] at hturn
  split at hturn
  · split_ifs at hturn
    · obtain rfl := Option.some.inj hturn
      exact ⟨h.pipe, rfl, h.arrived⟩
    · obtain rfl := Option.some.inj hturn
      exact Turn.balanced_of_error h
  · obtain rfl := Option.some.inj hturn
    exact Turn.balanced_of_error h
  · exact (nomatch hturn)

/-- **A turn that does not stop the worker takes exactly its request.** -/
theorem turn_balanced (hcuda : o.cuda.toStreamRoom.Enough)
    (hrooms : ∀ room ∈ o.rooms, room.Enough) {request : SidecarRequest torch} {turn : Turn torch}
    (hpipe : pipe.flatten = request.written) (hturn : worker.turn o pipe = some turn) :
    turn.Balanced request.tensors [] := by
  obtain ⟨rest, hread, hrest⟩ := readSome_one hpipe
  rw [SidecarWorker.turn, hread] at hturn
  simp only at hturn
  split_ifs at hturn
  refine respond_balanced (handle_balanced hcuda hrooms request ?_) hturn
  rw [hrest, List.append_nil]

end SidecarWorker

/-! ## The response is read exactly

The bytes of tensors are as many as announced, so what the client reads behind a header are the
tensors that were sent. -/

theorem OutputTensor.write_eq {copies : ℕ → Bool} {output : OutputTensor torch}
    {bytes : List UInt8} (h : output.write copies = some bytes) : bytes = output.sent.bytes := by
  rcases output with t | ⟨t, dtype⟩
  · exact (Option.some.inj h).symm
  · rw [writeChunks_eq h, List.map_map]
    rfl

theorem writeOutputs_eq {copies : ℕ → ℕ → Bool} {outputs : List (OutputTensor torch)} {i : ℕ}
    {bytes : List UInt8} (h : writeOutputs copies outputs i = some bytes) :
    bytes = Tensor.allBytes (outputs.map OutputTensor.sent) := by
  induction outputs generalizing i bytes with
  | nil => exact (Option.some.inj h).symm
  | cons output outputs ih =>
    obtain ⟨first, hfirst, h⟩ := Option.bind_eq_some_iff.mp h
    obtain ⟨more, hmore, rfl⟩ := Option.map_eq_some_iff.mp h
    rw [OutputTensor.write_eq hfirst, ih hmore]
    rfl

theorem decodeStreams_eq {rooms : List StreamRoom} {ts : List (Tensor torch)} {i : ℕ}
    {pipe rest : List (List (SidecarToken ResponseHeader))}
    {back : List (SidecarToken ResponseHeader)} {tensors : List (List (List UInt8))}
    (hpipe : pipe.flatten = tokens (Tensor.allBytes ts) ++ back)
    (h : decodeStreams torch rooms (Tensor.descriptions ts) i pipe = (some tensors, rest)) :
    tensors = ts.map Tensor.elements ∧ rest.flatten = back := by
  induction ts generalizing i pipe tensors with
  | nil =>
    obtain ⟨htensors, rfl⟩ := Prod.mk.inj h
    exact ⟨(Option.some.inj htensors).symm, hpipe⟩
  | cons t ts ih =>
    rw [Tensor.allBytes, List.flatMap_cons, tokens_append, List.append_assoc] at hpipe
    rw [Tensor.descriptions, List.map_cons, decodeStreams] at h
    split at h
    · next elements pipe' hdecode =>
      obtain ⟨rfl, hpipe'⟩ := decodeCpuTensor_ok t hpipe hdecode
      split at h
      · next more pipe'' hmore =>
        obtain ⟨hsome, rfl⟩ := Prod.mk.inj h
        obtain ⟨rfl, hrest⟩ := ih hpipe' hmore
        exact ⟨(Option.some.inj hsome).symm, hrest⟩
      · exact absurd (congrArg Prod.fst h) (Option.some_ne_none _).symm
    · exact absurd (congrArg Prod.fst h) (Option.some_ne_none _).symm

theorem length_allBytes (ts : List (Tensor torch)) :
    (Tensor.allBytes ts).length
      = ((Tensor.descriptions ts).map TensorDescription.nbytes).sum := by
  induction ts with
  | nil => rfl
  | cons t ts ih =>
    rw [Tensor.allBytes, List.flatMap_cons, List.length_append, t.length_bytes]
    exact congrArg _ ih

/-- A response tensor that arrives is the one that the worker had, converted. -/
theorem OutputTensor.right_of_sent (output : OutputTensor torch) :
    (output.transfer output.sent.elements).Right torch := by
  rcases output with t | ⟨t, dtype⟩
  · rfl
  · exact List.map_map.symm

/-! ## The runs -/

namespace SidecarState

variable {st st' : SidecarState torch}

/-- What is in the pipes, with the header of the response and the tensors behind it. -/
structure Sound (st : SidecarState torch) : Prop where
  idle : st.alive = true → st.phase = .idle → st.toWorker = [] ∧ st.toClient = []
  sent : ∀ request, st.phase = .sent request → st.toWorker = request.written ∧ st.toClient = []
  answered : ∀ outputs, st.phase = .answered outputs → st.toWorker = [] ∧
    ∃ header : ResponseHeader,
      header.tensorStreams = Tensor.descriptions (outputs.map OutputTensor.sent) ∧
      st.toClient
        = .line header :: tokens (Tensor.allBytes (outputs.map OutputTensor.sent))
  transfers : ∀ transfer ∈ st.transfers, transfer.Right torch

theorem Sound.inStep (h : st.Sound) : st.InStep := by
  refine ⟨h.idle, h.sent, ?_, h.transfers⟩
  intro outputs hphase
  obtain ⟨hempty, header, hstreams, hclient⟩ := h.answered outputs hphase
  exact ⟨hempty, header, _, hclient, hstreams ▸ length_allBytes _⟩

theorem Sound.terminated (h : st.Sound) : st.terminated.Sound :=
  ⟨(nomatch ·), fun _ h ↦ (nomatch h), fun _ h ↦ (nomatch h), h.transfers⟩

theorem Sound.send (h : st.Sound) {request : SidecarRequest torch} {printable : Bool}
    {accepted : List ℕ} (hstep : st.send request printable accepted = some st') : st'.Sound := by
  rw [SidecarState.send] at hstep
  split at hstep
  · next hidle =>
    split_ifs at hstep with hgoes
    · split at hstep
      · next written hwritten =>
        obtain rfl := Option.some.inj hstep
        obtain ⟨hworker, hclient⟩ := h.idle hgoes.1 hidle
        refine ⟨fun _ h ↦ (nomatch h), ?_, fun _ h ↦ (nomatch h), h.transfers⟩
        rintro _ ⟨⟩
        rw [writeAll_eq hwritten, hworker]
        exact ⟨rfl, hclient⟩
      · obtain rfl := Option.some.inj hstep
        exact h.terminated
    · obtain rfl := Option.some.inj hstep
      exact h
  · exact (nomatch hstep)

theorem Sound.turn (h : st.Sound) {o : TurnOutcome torch} {sizes accepted : List ℕ}
    (hcuda : o.cuda.toStreamRoom.Enough) (hrooms : ∀ room ∈ o.rooms, room.Enough)
    (hstep : st.turn o sizes accepted = some st') : st'.Sound := by
  rw [SidecarState.turn] at hstep
  split at hstep
  · next request hphase =>
    obtain ⟨hworker, hclient⟩ := h.sent request hphase
    split at hstep
    · next turn hturn =>
      have hbalanced := SidecarWorker.turn_balanced hcuda hrooms
        ((flatten_cut sizes st.toWorker).trans hworker) hturn
      split at hstep
      · next written hwritten =>
        obtain rfl := Option.some.inj hstep
        obtain ⟨bytes, hbytes, hwritten⟩ := Option.bind_eq_some_iff.mp hwritten
        refine ⟨fun _ h ↦ (nomatch h), fun _ h ↦ (nomatch h), ?_, ?_⟩
        · rintro _ ⟨⟩
          refine ⟨hbalanced.pipe, turn.header, hbalanced.header, ?_⟩
          rw [hclient, writeAll_eq hwritten, writeOutputs_eq hbytes]
          rfl
        · intro transfer htransfer
          rcases List.mem_append.mp htransfer with hold | hnew
          · exact h.transfers transfer hold
          · exact hbalanced.arrived transfer hnew
      · obtain rfl := Option.some.inj hstep
        exact h.terminated
    · obtain rfl := Option.some.inj hstep
      exact h.terminated
  · exact (nomatch hstep)

theorem Sound.receive (h : st.Sound) {rooms : List StreamRoom} {sizes : List ℕ}
    (hstep : st.receive rooms sizes = some st') : st'.Sound := by
  rw [SidecarState.receive] at hstep
  split at hstep
  · next outputs hphase =>
    obtain ⟨hworker, header, hstreams, hclient⟩ := h.answered outputs hphase
    obtain ⟨rest, hread, hrest⟩ :=
      readSome_one ((flatten_cut sizes st.toClient).trans hclient)
    rw [hread] at hstep
    simp only at hstep
    split at hstep
    · next tensors pipe hdecode =>
      obtain rfl := Option.some.inj hstep
      rw [hstreams] at hdecode
      obtain ⟨rfl, hempty⟩ := decodeStreams_eq (hrest.trans (List.append_nil _).symm) hdecode
      refine ⟨fun _ _ ↦ ⟨hworker, hempty⟩, fun _ h ↦ (nomatch h), fun _ h ↦ (nomatch h), ?_⟩
      intro transfer htransfer
      rcases List.mem_append.mp htransfer with hold | hnew
      · exact h.transfers transfer hold
      · rw [List.map_map, List.zipWith_map_right, List.zipWith_self] at hnew
        obtain ⟨output, -, rfl⟩ := List.mem_map.mp hnew
        exact output.right_of_sent
    · obtain rfl := Option.some.inj hstep
      exact h.terminated
  · exact (nomatch hstep)

theorem sound_init : ({} : SidecarState torch).Sound :=
  ⟨fun _ _ ↦ ⟨rfl, rfl⟩, fun _ h ↦ (nomatch h), fun _ h ↦ (nomatch h), fun _ h ↦ (nomatch h)⟩

end SidecarState

/-- **The two sides stay in step**, and every tensor arrives as it was sent, after the conversion
that was asked for: whatever fails in a turn, as long as there is memory for the failure. -/
theorem sidecar_in_step {torch : Torch} {actions : List (SidecarAction torch)}
    {st : SidecarState torch}
    (hrun : ((sidecarSession torch).restrict fun _ action ↦ action.Roomy).run {} actions
      = some st) : st.InStep := by
  refine SidecarState.Sound.inStep ?_
  refine Machine.run_invariant _ ?_ SidecarState.sound_init hrun
  intro st action st' hst hstep
  obtain ⟨hroomy, hstep⟩ := Machine.step_restrict.mp hstep
  rcases action with ⟨request, printable, accepted⟩ | ⟨o, sizes, accepted⟩ | ⟨rooms, sizes⟩
  · exact hst.send hstep
  · exact hst.turn hroomy.1 hroomy.2 hstep
  · exact hst.receive hstep

/-! ### Runs of a small torch -/

/-- Two types of one and two bytes; a conversion cuts off or fills up. -/
def smallTorch : Torch where
  elementSize dtype := if dtype = "float64" then 2 else 1
  known dtype := dtype = "float32" ∨ dtype = "float64"
  convert _ target element :=
    (element.take (if target = "float64" then 2 else 1)).rightpad
      (if target = "float64" then 2 else 1) 0
  elementSize_pos dtype := by
    split_ifs
    · exact Nat.two_pos
    · exact Nat.one_pos
  length_convert _ target element := by
    rw [List.length_rightpad, Nat.max_eq_left (List.length_take_le _ _)]

def smallTensor : Tensor smallTorch :=
  ⟨[3], "float32", [[1], [2], [3]], rfl, by decide⟩

/-- An upload with a conversion, a chunk that CUDA refuses, a call that has no memory for its second
tensor, and a download. -/
theorem sidecar_in_step_failures : ∃ st : SidecarState smallTorch,
    ((sidecarSession smallTorch).restrict fun _ action ↦ action.Roomy).run {}
      [.send (.upload smallTensor "float64") true [7, 1], .turn {} [3, 1] [2], .receive [] [],
        .send (.copyFromCpu 1 smallTensor) true [],
        .turn { cuda := { copies := fun _ ↦ false } } [2] [], .receive [] [1],
        .send (.call [smallTensor, smallTensor]) true [],
        .turn { rooms := [{}, { tensor := false }] } [5] [], .receive [] [],
        .send (.call [smallTensor]) true [],
        .turn { result := some [.cpu smallTensor true, .plain true] } [] [], .receive [] [2],
        .send (.download 1 "float32") true [], .turn {} [] [], .receive [] []] = some st ∧
      st.InStep := by
  refine (Option.isSome_iff_exists.mp ?_).imp fun st hrun ↦ ⟨hrun, sidecar_in_step hrun⟩
  decide +kernel

/-- There is no memory for a tensor, nor for the buffer to throw its bytes away: the worker answers
with an error and leaves the bytes in the pipe, where its next turn reads them as a request. -/
theorem undiscarded_stream_left : ∃ st : SidecarState smallTorch,
    (sidecarSession smallTorch).run {}
      [.send (.upload smallTensor "float32") true [],
        .turn { cuda := { tensor := false, discard := false } } [] []] = some st ∧
      st.alive = true ∧ st.toWorker = tokens [1, 2, 3] ∧ ¬st.InStep := by
  refine ⟨_, rfl, rfl, rfl, fun h ↦ ?_⟩
  exact absurd (h.answered _ rfl).1 (List.cons_ne_nil _ _)

end Lupine
