import Lupine.Foundation.Pipe
import Mathlib.Algebra.BigOperators.Group.List.Basic
import Mathlib.Algebra.GroupWithZero.Nat
import Mathlib.Tactic.Common

/-!
# The tensor streams of the sidecar

Between the client and its worker a tensor travels as a description in a header and as its bytes
behind the header. There are three ways to take the bytes off the pipe: into a tensor in host
memory, chunk by chunk over a staging buffer into a CUDA tensor, and into a buffer that is thrown
away.

## Failures

A stream that ends early is a `TensorStreamError`, which stops the worker. Every other exception is
answered, so whoever raises one must have taken all of the announced bytes off the pipe. What can
fail is given from outside: memory that there is not, a chunk that CUDA does not copy.

## Exactly the bytes

Each of the three ways has one lemma of the same form: if the pipe begins with the bytes that were
announced, then afterwards it begins with what follows them, and the outcome is the tensor that was
sent or an exception. It holds for any pieces in which the pipe delivers the bytes, as long as there
is memory for what a failure needs.
-/

open Foundation

namespace Lupine

/-- What the transport relies on in torch: the bytes of an element of each type, by the name of the
type; which names the worker's torch has; and what `copy_` makes of one element. -/
structure Torch where
  elementSize : String → ℕ
  known : String → Bool
  convert : String → String → List UInt8 → List UInt8
  elementSize_pos : ∀ dtype, 0 < elementSize dtype
  length_convert : ∀ source target element, (convert source target element).length
    = elementSize target

/-- A tensor: the bytes of each of its elements, in order. -/
structure Tensor (torch : Torch) where
  shape : List ℕ
  dtype : String
  elements : List (List UInt8)
  length_elements : elements.length = shape.prod
  length_element : ∀ element ∈ elements, element.length = torch.elementSize dtype

/-- What is announced of a tensor. -/
structure TensorDescription where
  shape : List ℕ
  dtype : String
  nbytes : ℕ
  deriving DecidableEq, Repr

/-- What is in a pipe: headers, each a line of JSON, and the bytes of tensors. -/
inductive SidecarToken (H : Type) where
  | line (header : H)
  | byte (value : UInt8)

inductive PyFailure where
  | tensorStreamError
  | exception
  deriving DecidableEq, Repr

/-- `_TENSOR_CHUNK_BYTES`. -/
def tensorChunkBytes : ℕ := 8 * 1024 * 1024

variable {H : Type} (torch : Torch)

/-- The token's byte; the first one of a line is a brace. -/
def SidecarToken.toByte : SidecarToken H → UInt8
  | line _ => 123
  | byte value => value

def tokens (bytes : List UInt8) : List (SidecarToken H) := bytes.map .byte

namespace Tensor

variable {torch}

/-- `_tensor_bytes`. -/
def bytes (t : Tensor torch) : List UInt8 := t.elements.flatten

/-- `_tensor_stream_metadata`, with a type that the tensor is converted to. -/
def streamMetadata (t : Tensor torch) (dtype : String) : TensorDescription :=
  ⟨t.shape, dtype, t.shape.prod * torch.elementSize dtype⟩

/-- What `copy_` makes of the elements. -/
def converted (t : Tensor torch) (dtype : String) : List (List UInt8) :=
  t.elements.map (torch.convert t.dtype dtype)

end Tensor

/-- A buffer seen as so many elements of a size. -/
def elementsOf (size : ℕ) : ℕ → List UInt8 → List (List UInt8)
  | 0, _ => []
  | n + 1, bytes => (bytes.take size).rightpad size 0 :: elementsOf size n (bytes.drop size)

theorem elementsOf_flatten {size : ℕ} {elements : List (List UInt8)}
    (h : ∀ element ∈ elements, element.length = size) :
    elementsOf size elements.length elements.flatten = elements := by
  induction elements with
  | nil => rfl
  | cons element elements ih =>
    obtain ⟨hfirst, hrest⟩ := List.forall_mem_cons.mp h
    rw [List.length_cons, List.flatten_cons, elementsOf, List.take_left' hfirst,
      List.drop_left' hfirst, ih hrest, List.rightpad, hfirst, Nat.sub_self]
    exact congrArg (· :: elements) (List.append_nil element)

/-! ## Taking bytes off a pipe

What fails in the middle throws away the rest of the stream before the exception is raised. -/

variable {torch}

/-- `_discard_bytes`, when there is memory for its buffer. -/
def discardBytes (room : Bool) (size : ℕ) (pipe : List (List (SidecarToken H))) :
    Option PyFailure × List (List (SidecarToken H)) :=
  if size ≠ 0 ∧ room = false then (some .exception, pipe)
  else
    match readFull (min size tensorChunkBytes) size pipe with
    | (some _, pipe) => (none, pipe)
    | (none, pipe) => (some .tensorStreamError, pipe)

/-- What the memory allows for one stream: the element of `_parse_tensor_metadata`, the tensor, and
the buffer for bytes that are thrown away. -/
structure StreamRoom where
  metadata : Bool := true
  tensor : Bool := true
  discard : Bool := true
  deriving DecidableEq, Repr

/-- Failing with an exception after the rest of a stream is thrown away. -/
def failDiscarding {α : Type} (room : Bool) (size : ℕ) (pipe : List (List (SidecarToken H))) :
    Except PyFailure α × List (List (SidecarToken H)) :=
  match discardBytes room size pipe with
  | (some failure, pipe) => (.error failure, pipe)
  | (none, pipe) => (.error .exception, pipe)

/-- `_read_tensor`. -/
def readTensor (torch : Torch) (description : TensorDescription)
    (pipe : List (List (SidecarToken H))) :
    Except PyFailure (List (List UInt8)) × List (List (SidecarToken H)) :=
  match readFull tensorChunkBytes description.nbytes pipe with
  | (some data, pipe) =>
    (.ok (elementsOf (torch.elementSize description.dtype) description.shape.prod
      (data.map SidecarToken.toByte)), pipe)
  | (none, pipe) => (.error .tensorStreamError, pipe)

/-- `_decode_cpu_tensor`. -/
def decodeCpuTensor (torch : Torch) (room : StreamRoom) (description : TensorDescription)
    (pipe : List (List (SidecarToken H))) :
    Except PyFailure (List (List UInt8)) × List (List (SidecarToken H)) :=
  if room.metadata = false then (.error .exception, pipe)
  else if room.tensor = false then failDiscarding room.discard description.nbytes pipe
  else readTensor torch description pipe

/-- The loop of `receive_tensors` over the streams behind one that failed. -/
def discardRemaining (room : ℕ → StreamRoom) :
    List TensorDescription → ℕ → List (List (SidecarToken H)) →
      PyFailure × List (List (SidecarToken H))
  | [], _, pipe => (.exception, pipe)
  | description :: descriptions, i, pipe =>
    match discardBytes (room i).discard description.nbytes pipe with
    | (some failure, pipe) => (failure, pipe)
    | (none, pipe) => discardRemaining room descriptions (i + 1) pipe

/-- `receive_tensors`. -/
def receiveTensors (torch : Torch) (room : ℕ → StreamRoom) :
    List TensorDescription → ℕ → List (List (SidecarToken H)) →
      Except PyFailure (List (List (List UInt8))) × List (List (SidecarToken H))
  | [], _, pipe => (.ok [], pipe)
  | description :: descriptions, i, pipe =>
    match decodeCpuTensor torch (room i) description pipe with
    | (.ok elements, pipe) =>
      match receiveTensors torch room descriptions (i + 1) pipe with
      | (.ok tensors, pipe) => (.ok (elements :: tensors), pipe)
      | (.error failure, pipe) => (.error failure, pipe)
    | (.error .tensorStreamError, pipe) => (.error .tensorStreamError, pipe)
    | (.error .exception, pipe) =>
      match discardRemaining room descriptions (i + 1) pipe with
      | (failure, pipe) => (.error failure, pipe)

/-! ### Over a staging buffer

A chunk that CUDA does not copy has been read by then, so the rest begins behind it. -/

/-- How the chunks of `_read_cuda_tensor` end. -/
structure ChunksRead (H : Type) where
  failure : Option PyFailure
  /-- The elements of the CUDA tensor that are written. -/
  done : List (List UInt8)
  /-- The elements that were not read. -/
  unread : ℕ
  pipe : List (List (SidecarToken H))

/-- The loop of `_read_cuda_tensor` over the chunks: every chunk is read into the staging buffer and
copied, which CUDA may refuse. -/
def readChunks (torch : Torch) (source target : String) (copies : ℕ → Bool) :
    ℕ → ℕ → ℕ → List (List UInt8) → List (List (SidecarToken H)) → ChunksRead H
  | _, _, 0, done, pipe => ⟨none, done, 0, pipe⟩
  | 0, _, unread + 1, done, pipe => ⟨some .tensorStreamError, done, unread + 1, pipe⟩
  | fuel + 1, chunk, unread + 1, done, pipe =>
    let size := torch.elementSize source
    let count := min (max 1 (tensorChunkBytes / size)) (unread + 1)
    match readFull (count * size) (count * size) pipe with
    | (some data, pipe) =>
      if copies chunk then
        readChunks torch source target copies fuel (chunk + 1) (unread + 1 - count)
          (done ++ (elementsOf size count (data.map SidecarToken.toByte)).map
            (torch.convert source target)) pipe
      else ⟨some .exception, done, unread + 1 - count, pipe⟩
    | (none, pipe) => ⟨some .tensorStreamError, done, unread + 1, pipe⟩

/-- What the memory and CUDA allow for one stream to a CUDA tensor. -/
structure CudaRoom extends StreamRoom where
  staging : Bool := true
  copies : ℕ → Bool := fun _ ↦ true

/-- How `_read_cuda_tensor` ends after its loop, with the size of an element in the stream. -/
def ChunksRead.finish (discard : Bool) (size : ℕ) (read : ChunksRead H) :
    List (List UInt8) × Except PyFailure Unit × List (List (SidecarToken H)) :=
  match read.failure with
  | none => (read.done, .ok (), read.pipe)
  | some .tensorStreamError => (read.done, .error .tensorStreamError, read.pipe)
  | some .exception => (read.done, failDiscarding discard (read.unread * size) read.pipe)

/-- `_read_cuda_tensor`, up to the copy from the tensor into a destination of another shape: the
elements that were written to the tensor of type `target`, and how it ended. A tensor is allocated
unless the destination is written directly. -/
def readCudaTensor (torch : Torch) (room : CudaRoom) (description : TensorDescription)
    (target : String) (direct : Bool) (pipe : List (List (SidecarToken H))) :
    List (List UInt8) × Except PyFailure Unit × List (List (SidecarToken H)) :=
  if room.metadata = false then ([], .error .exception, pipe)
  else if (direct = false ∧ room.tensor = false) ∨ room.staging = false then
    ([], failDiscarding room.discard description.nbytes pipe)
  else
    (readChunks torch description.dtype target room.copies description.shape.prod 0
      description.shape.prod [] pipe).finish room.discard (torch.elementSize description.dtype)

/-- The loop of `_write_cuda_tensor` over the chunks of a tensor: every chunk is copied into the
staging tensor, which CUDA may refuse, and written. -/
def writeChunks (torch : Torch) (source target : String) (copies : ℕ → Bool) :
    ℕ → ℕ → List (List UInt8) → Option (List UInt8)
  | _, _, [] => some []
  | 0, _, _ :: _ => none
  | fuel + 1, chunk, element :: elements =>
    let count := max 1 (tensorChunkBytes / torch.elementSize target)
    if copies chunk = true then
      (writeChunks torch source target copies fuel (chunk + 1)
        ((element :: elements).drop count)).map
          ((((element :: elements).take count).map (torch.convert source target)).flatten ++ ·)
    else none

/-- The chunks that are written are the whole tensor, converted. -/
theorem writeChunks_eq {source target : String} {copies : ℕ → Bool} {fuel chunk : ℕ}
    {elements : List (List UInt8)} {bytes : List UInt8}
    (h : writeChunks torch source target copies fuel chunk elements = some bytes) :
    bytes = (elements.map (torch.convert source target)).flatten := by
  induction fuel generalizing chunk elements bytes with
  | zero =>
    rcases elements with - | ⟨element, elements⟩
    · exact (Option.some.inj h).symm
    · exact (nomatch h)
  | succ fuel ih =>
    rcases elements with - | ⟨element, elements⟩
    · exact (Option.some.inj h).symm
    · rw [writeChunks] at h
      split_ifs at h
      obtain ⟨more, hmore, rfl⟩ := Option.map_eq_some_iff.mp h
      rw [ih hmore, ← List.flatten_append, ← List.map_append, List.take_append_drop]

/-! ## A stream is taken off the pipe exactly

Bytes at the front of a pipe are read whole, whatever the pieces. -/

theorem length_flatten_of_forall {size : ℕ} {elements : List (List UInt8)}
    (h : ∀ element ∈ elements, element.length = size) :
    elements.flatten.length = elements.length * size := by
  induction elements with
  | nil => exact (Nat.zero_mul _).symm
  | cons element elements ih =>
    obtain ⟨hfirst, hrest⟩ := List.forall_mem_cons.mp h
    rw [List.flatten_cons, List.length_append, hfirst, ih hrest, List.length_cons, Nat.succ_mul,
      Nat.add_comm]

theorem Tensor.length_bytes (t : Tensor torch) :
    t.bytes.length = t.shape.prod * torch.elementSize t.dtype := by
  rw [Tensor.bytes, length_flatten_of_forall t.length_element, t.length_elements]

theorem toByte_tokens (bytes : List UInt8) :
    (tokens bytes : List (SidecarToken H)).map SidecarToken.toByte = bytes := by
  rw [tokens, List.map_map]
  exact List.map_id bytes

theorem length_tokens (bytes : List UInt8) :
    (tokens bytes : List (SidecarToken H)).length = bytes.length := List.length_map _

theorem tokens_append (bytes bytes' : List UInt8) :
    (tokens (bytes ++ bytes') : List (SidecarToken H)) = tokens bytes ++ tokens bytes' :=
  List.map_append

variable {pipe : List (List (SidecarToken H))} {back : List (SidecarToken H)} {bytes : List UInt8}

theorem readFull_tokens {limit : ℕ} (hlimit : 0 < limit ∨ bytes = [])
    (hpipe : pipe.flatten = tokens bytes ++ back) :
    ∃ rest, readFull limit bytes.length pipe = (some (tokens bytes), rest) ∧
      rest.flatten = back := by
  rw [← length_tokens (H := H) bytes]
  refine readFull_append (hlimit.imp_right fun h ↦ ?_) hpipe
  rw [h]
  rfl

theorem discardBytes_of_room (hpipe : pipe.flatten = tokens bytes ++ back) :
    ∃ rest, discardBytes true bytes.length pipe = (none, rest) ∧ rest.flatten = back := by
  have hchunk : 0 < tensorChunkBytes := by decide
  have hlimit : 0 < min bytes.length tensorChunkBytes ∨ bytes = [] := by
    rcases bytes with - | ⟨a, bytes⟩
    · exact Or.inr rfl
    · exact Or.inl (lt_min (Nat.succ_pos _) hchunk)
  obtain ⟨rest, hread, hrest⟩ := readFull_tokens hlimit hpipe
  refine ⟨rest, ?_, hrest⟩
  rw [discardBytes, if_neg (fun h ↦ Bool.false_ne_true h.2.symm), hread]

theorem failDiscarding_of_room {α : Type} (hpipe : pipe.flatten = tokens bytes ++ back) :
    ∃ rest, failDiscarding (α := α) true bytes.length pipe = (.error .exception, rest) ∧
      rest.flatten = back := by
  obtain ⟨rest, hdiscard, hrest⟩ := discardBytes_of_room hpipe
  refine ⟨rest, ?_, hrest⟩
  rw [failDiscarding, hdiscard]

/-- There is memory for what the failures need. -/
def StreamRoom.Enough (room : StreamRoom) : Prop := room.metadata = true ∧ room.discard = true

instance (room : StreamRoom) : Decidable room.Enough := inferInstanceAs (Decidable (_ ∧ _))

theorem readTensor_spec (t : Tensor torch) (hpipe : pipe.flatten = tokens t.bytes ++ back) :
    ∃ rest, rest.flatten = back ∧
      readTensor torch (t.streamMetadata t.dtype) pipe = (.ok t.elements, rest) := by
  have hsize : (t.streamMetadata t.dtype).nbytes = t.bytes.length := t.length_bytes.symm
  have hchunk : 0 < tensorChunkBytes := by decide
  obtain ⟨rest, hread, hrest⟩ := readFull_tokens (Or.inl hchunk) hpipe
  refine ⟨rest, hrest, ?_⟩
  rw [readTensor, hsize, hread]
  simp only
  rw [toByte_tokens, Tensor.bytes]
  show (Except.ok (elementsOf (torch.elementSize t.dtype) t.shape.prod t.elements.flatten), rest)
    = _
  rw [← t.length_elements, elementsOf_flatten t.length_element]

/-- **A tensor in host memory**: it arrives as it was sent or there is an exception, and either way
exactly its bytes are taken. -/
theorem decodeCpuTensor_spec {room : StreamRoom} (hroom : room.Enough) (t : Tensor torch)
    (hpipe : pipe.flatten = tokens t.bytes ++ back) :
    ∃ rest, rest.flatten = back ∧
      (decodeCpuTensor torch room (t.streamMetadata t.dtype) pipe = (.ok t.elements, rest) ∨
        decodeCpuTensor torch room (t.streamMetadata t.dtype) pipe
          = (.error .exception, rest)) := by
  obtain ⟨hmetadata, hdiscard⟩ := hroom
  have hsize : (t.streamMetadata t.dtype).nbytes = t.bytes.length := t.length_bytes.symm
  rw [decodeCpuTensor, if_neg (by rw [hmetadata]; decide)]
  by_cases htensor : room.tensor = false
  · obtain ⟨rest, hfail, hrest⟩ := failDiscarding_of_room (α := List (List UInt8)) hpipe
    refine ⟨rest, hrest, Or.inr ?_⟩
    rw [if_pos htensor, hdiscard, hsize, hfail]
  · obtain ⟨rest, hrest, hread⟩ := readTensor_spec t hpipe
    exact ⟨rest, hrest, Or.inl (by rw [if_neg htensor, hread])⟩

/-- A tensor that arrives is the one that was sent, whatever memory there is. -/
theorem decodeCpuTensor_ok {room : StreamRoom} (t : Tensor torch)
    (hpipe : pipe.flatten = tokens t.bytes ++ back) {elements : List (List UInt8)}
    {rest : List (List (SidecarToken H))}
    (h : decodeCpuTensor torch room (t.streamMetadata t.dtype) pipe = (.ok elements, rest)) :
    elements = t.elements ∧ rest.flatten = back := by
  rw [decodeCpuTensor] at h
  split_ifs at h with hmetadata htensor
  · exact (nomatch congrArg Prod.fst h)
  · rw [failDiscarding] at h
    split at h <;> exact (nomatch congrArg Prod.fst h)
  · obtain ⟨rest', hrest', hread⟩ := readTensor_spec t hpipe
    obtain ⟨hok, rfl⟩ := Prod.mk.inj (hread.symm.trans h)
    exact ⟨(Except.ok.inj hok).symm, hrest'⟩

def Tensor.allBytes (ts : List (Tensor torch)) : List UInt8 := ts.flatMap Tensor.bytes

/-- What is announced of tensors that are sent as they are. -/
def Tensor.descriptions (ts : List (Tensor torch)) : List TensorDescription :=
  ts.map fun t ↦ t.streamMetadata t.dtype

theorem discardRemaining_spec {room : ℕ → StreamRoom} (hroom : ∀ i, (room i).Enough)
    (ts : List (Tensor torch)) (i : ℕ)
    (hpipe : pipe.flatten = tokens (Tensor.allBytes ts) ++ back) :
    ∃ rest, discardRemaining room (Tensor.descriptions ts) i pipe = (.exception, rest) ∧
      rest.flatten = back := by
  induction ts generalizing i pipe with
  | nil => exact ⟨pipe, rfl, hpipe⟩
  | cons t ts ih =>
    rw [Tensor.allBytes, List.flatMap_cons, tokens_append, List.append_assoc] at hpipe
    obtain ⟨rest, hdiscard, hrest⟩ := discardBytes_of_room hpipe
    obtain ⟨rest', hremaining, hrest'⟩ := ih (i + 1) hrest
    refine ⟨rest', ?_, hrest'⟩
    have hsize : (t.streamMetadata t.dtype).nbytes = t.bytes.length := t.length_bytes.symm
    rw [Tensor.descriptions, List.map_cons, discardRemaining, (hroom i).2, hsize, hdiscard]
    exact hremaining

/-- **Tensors in host memory**: all arrive, or there is an exception; all bytes are taken. -/
theorem receiveTensors_spec {room : ℕ → StreamRoom} (hroom : ∀ i, (room i).Enough)
    (ts : List (Tensor torch)) (i : ℕ)
    (hpipe : pipe.flatten = tokens (Tensor.allBytes ts) ++ back) :
    ∃ rest, rest.flatten = back ∧
      (receiveTensors torch room (Tensor.descriptions ts) i pipe
          = (.ok (ts.map Tensor.elements), rest) ∨
        receiveTensors torch room (Tensor.descriptions ts) i pipe = (.error .exception, rest)) := by
  induction ts generalizing i pipe with
  | nil => exact ⟨pipe, hpipe, Or.inl rfl⟩
  | cons t ts ih =>
    rw [Tensor.allBytes, List.flatMap_cons, tokens_append, List.append_assoc] at hpipe
    obtain ⟨rest, hrest, hok | hfail⟩ := decodeCpuTensor_spec (hroom i) t hpipe
    · obtain ⟨rest', hrest', hmore | hmore⟩ := ih (i + 1) hrest
      · refine ⟨rest', hrest', Or.inl ?_⟩
        rw [Tensor.descriptions, List.map_cons, receiveTensors, hok]
        simp only
        rw [← Tensor.descriptions, hmore, List.map_cons]
      · refine ⟨rest', hrest', Or.inr ?_⟩
        rw [Tensor.descriptions, List.map_cons, receiveTensors, hok]
        simp only
        rw [← Tensor.descriptions, hmore]
    · obtain ⟨rest', hremaining, hrest'⟩ := discardRemaining_spec hroom ts (i + 1) hrest
      refine ⟨rest', hrest', Or.inr ?_⟩
      rw [Tensor.descriptions, List.map_cons, receiveTensors, hfail]
      simp only
      rw [← Tensor.descriptions, hremaining]

/-! ### Over a staging buffer

Between two chunks the elements that are not read yet stand at the front of the pipe. -/

/-- The chunks ended with exactly the unread elements still at the front of the pipe; if nothing
failed, all are converted. -/
structure ChunksRead.Exact (read : ChunksRead H) (size : ℕ) (converted : List (List UInt8))
    (back : List (SidecarToken H)) : Prop where
  unread : ∃ bytes, read.pipe.flatten = tokens bytes ++ back ∧ bytes.length = read.unread * size
  ended : read.failure = some .exception ∨
    read.failure = none ∧ read.unread = 0 ∧ read.done = converted

theorem readChunks_spec {source target : String} {copies : ℕ → Bool} {fuel chunk : ℕ}
    {elements done : List (List UInt8)} (hfuel : elements.length ≤ fuel)
    (helements : ∀ element ∈ elements, element.length = torch.elementSize source)
    (hpipe : pipe.flatten = tokens elements.flatten ++ back) :
    (readChunks torch source target copies fuel chunk elements.length done pipe).Exact
      (torch.elementSize source) (done ++ elements.map (torch.convert source target)) back := by
  -- the fuel bounds the number of chunks, as each has an element at least
  induction fuel generalizing chunk elements done pipe with
  | zero =>
    obtain rfl : elements = [] := List.length_eq_zero_iff.mp (Nat.le_zero.mp hfuel)
    exact ⟨⟨[], hpipe, (Nat.zero_mul _).symm⟩, Or.inr ⟨rfl, rfl, (List.append_nil done).symm⟩⟩
  | succ fuel ih =>
    rcases hsplit : elements with - | ⟨element, elements'⟩
    · subst hsplit
      exact ⟨⟨[], hpipe, (Nat.zero_mul _).symm⟩, Or.inr ⟨rfl, rfl, (List.append_nil done).symm⟩⟩
    rw [← hsplit]
    have hlength : elements.length = elements'.length + 1 := congrArg List.length hsplit
    let count := min (max 1 (tensorChunkBytes / torch.elementSize source)) (elements'.length + 1)
    have hpos : 0 < count := lt_min (Nat.lt_of_lt_of_le Nat.one_pos (Nat.le_max_left _ _))
      (Nat.succ_pos _)
    have hcount : count ≤ elements.length := hlength ▸ Nat.min_le_right _ _
    have hfront : (elements.take count).flatten.length = count * torch.elementSize source := by
      rw [length_flatten_of_forall fun e he ↦ helements e (List.mem_of_mem_take he),
        List.length_take_of_le hcount]
    have hcut : pipe.flatten = tokens (elements.take count).flatten
        ++ (tokens (elements.drop count).flatten ++ back) := by
      rw [hpipe, ← List.append_assoc, ← tokens_append, ← List.flatten_append,
        List.take_append_drop]
    have hlimit : 0 < count * torch.elementSize source :=
      Nat.mul_pos hpos (torch.elementSize_pos source)
    -- the worker reads exactly the bytes of the chunk, and the rest of the pipe is as expected
    obtain ⟨rest, hread, hrest⟩ := readFull_tokens (Or.inl hlimit) hcut
    rw [hfront] at hread
    have hdata : elementsOf (torch.elementSize source) count (elements.take count).flatten
        = elements.take count := by
      have hexact := elementsOf_flatten
        fun e (he : e ∈ elements.take count) ↦ helements e (List.mem_of_mem_take he)
      rwa [List.length_take_of_le hcount] at hexact
    have hleft : elements'.length + 1 - count = (elements.drop count).length := by
      rw [List.length_drop, hlength]
    rw [hlength, readChunks, hread]
    simp only [toByte_tokens]
    rw [hdata, hleft]
    by_cases hcopies : copies chunk = true
    · rw [if_pos hcopies]
      have hdone : done ++ elements.map (torch.convert source target)
          = done ++ (elements.take count).map (torch.convert source target)
            ++ (elements.drop count).map (torch.convert source target) := by
        rw [List.append_assoc, ← List.map_append, List.take_append_drop]
      rw [hdone]
      exact ih (by rw [List.length_drop]; omega)
        (fun e he ↦ helements e (List.mem_of_mem_drop he)) hrest
    · rw [if_neg hcopies]
      -- a failed copy leaves whole elements in the pipe
      refine ⟨⟨(elements.drop count).flatten, hrest, ?_⟩, Or.inl rfl⟩
      exact length_flatten_of_forall fun e he ↦ helements e (List.mem_of_mem_drop he)

theorem ChunksRead.Exact.finish {read : ChunksRead H} {size : ℕ} {converted : List (List UInt8)}
    (h : read.Exact size converted back) :
    ∃ rest, rest.flatten = back ∧
      (read.finish true size = (converted, .ok (), rest) ∨
        ∃ done, read.finish true size = (done, .error .exception, rest)) := by
  obtain ⟨⟨bytes, hbytes, hlength⟩, hfailed | ⟨hnone, hall, hdone⟩⟩ := h
  · obtain ⟨rest, hfail, hrest⟩ := failDiscarding_of_room (α := Unit) hbytes
    refine ⟨rest, hrest, Or.inr ⟨read.done, ?_⟩⟩
    rw [ChunksRead.finish, hfailed, ← hlength, hfail]
  · rw [hall, Nat.zero_mul] at hlength
    obtain rfl := List.length_eq_zero_iff.mp hlength
    refine ⟨read.pipe, hbytes, Or.inl ?_⟩
    rw [ChunksRead.finish, hnone, hdone]

/-- **A CUDA tensor**: every element is converted or there is an exception, and either way exactly
the bytes of the stream are taken. -/
theorem readCudaTensor_spec {room : CudaRoom} (hroom : room.toStreamRoom.Enough) (t : Tensor torch)
    (target : String) (direct : Bool) (hpipe : pipe.flatten = tokens t.bytes ++ back) :
    ∃ rest, rest.flatten = back ∧
      (readCudaTensor torch room (t.streamMetadata t.dtype) target direct pipe
          = (t.converted target, .ok (), rest) ∨
        ∃ done, readCudaTensor torch room (t.streamMetadata t.dtype) target direct pipe
          = (done, .error .exception, rest)) := by
  obtain ⟨hmetadata, hdiscard⟩ := hroom
  have hsize : (t.streamMetadata t.dtype).nbytes = t.bytes.length := t.length_bytes.symm
  rw [readCudaTensor, if_neg (by rw [hmetadata]; decide), hdiscard]
  by_cases hmemory : (direct = false ∧ room.tensor = false) ∨ room.staging = false
  · obtain ⟨rest, hfail, hrest⟩ := failDiscarding_of_room (α := Unit) hpipe
    refine ⟨rest, hrest, Or.inr ⟨[], ?_⟩⟩
    rw [if_pos hmemory, hsize, hfail]
  · rw [if_neg hmemory]
    have hexact : (readChunks torch t.dtype target room.copies t.shape.prod 0 t.shape.prod []
        pipe).Exact (torch.elementSize t.dtype) (t.converted target) back := by
      rw [← t.length_elements]
      exact readChunks_spec le_rfl t.length_element hpipe
    exact hexact.finish

end Lupine
