import Lupine.Codegen.Operations
import Lupine.Transport.Words

/-!
# The fragments of stubs and handlers

What the generated code does for each operation: `client_rpc_write` puts an argument on the wire,
`server_rpc_read` takes it off into the local variables of the handler, `server_reference` is what
the API function is then called with, `server_rpc_write` sends back what the function left, and
`client_rpc_read` stores it where the caller said. Each is a program over the list of operations;
the text that the generator emits is that program written out for one function.

Where the generated code would run into undefined behaviour (a null pointer is read, a variable is
used before it was set, memory is read or written beyond its end) the program here fails. Memory is
always granted, except for the storage of received structs, whose allocation the stub tests. What
mapped host memory does beside the copying is left out.
-/

namespace Lupine

open Foundation

namespace Codegen

variable {ν : Type}

/-! ## Arguments

Memory that a pointer leads to is a list of bytes, and nothing beyond its end can be read. -/

/-- So many bytes of a piece of memory, which may not be read beyond its end. -/
def loadContents (bytes : List UInt8) (size : ℕ) : Option (List UInt8) :=
  if size ≤ bytes.length then some (bytes.take size) else none

def writeIf (c : Prop) [Decidable c] (written : Option (List UInt8)) : Option (List UInt8) :=
  if c then written else some []

def readIf (c : Prop) [Decidable c] (r : Reader UInt8 (List UInt8)) :
    Reader UInt8 (List UInt8) :=
  if c then r else pure []

/-- An argument as the caller passes it: a value, a null pointer, a pointer to memory, or a pointer
to a struct with the memory that its arrays point to. -/
inductive Arg
  | value (bytes : List UInt8)
  | null
  | block (address : ℕ) (bytes : List UInt8)
  | deep (address : ℕ) (header : List UInt8) (arrays : List (List UInt8))
  deriving DecidableEq, Repr

namespace Arg

def word : Arg → ℕ
  | value bytes => leValue bytes
  | null => 0
  | block address _ | deep address .. => address

def bytes? : Arg → Option (List UInt8)
  | value bytes => some bytes
  | _ => none

def load (size : ℕ) : Arg → Option (List UInt8)
  | block _ bytes => loadContents bytes size
  | _ => none

def store (data : List UInt8) : Arg → Option Arg
  | block address bytes =>
    if data.length ≤ bytes.length then some (block address (data ++ bytes.drop data.length))
    else none
  | _ => none

end Arg

/-- The arguments of a call, by parameter. -/
abbrev Args (ν : Type) := ν → Arg

/-- An argument as the API function finds it: memory it is to fill has no contents yet. -/
inductive Seen
  | value (bytes : List UInt8)
  | null
  | memory (contents : List UInt8)
  | room (size : ℕ)
  | deep (header : List UInt8) (arrays : List (List UInt8))
  deriving DecidableEq, Repr

/-- What the API function leaves in the memory of a parameter. -/
structure Left where
  contents : List UInt8
  arrays : List (List UInt8)
  deriving DecidableEq, Repr

/-! ## Sizes

The text of a size is evaluated from the variables that are in scope on either side, which hold the
same values by then. -/

/-- The conversion of an integer variable to `size_t`. -/
def toSizeT (signed : Bool) (bytes : List UInt8) : ℕ :=
  let value := leValue bytes
  if signed ∧ 256 ^ bytes.length ≤ 2 * value then value + 256 ^ 8 - 256 ^ bytes.length else value

/-- `transfer_size_expr`, from the variables that are in scope. -/
def Length.transferSize (values : ν → Option (List UInt8)) (elem : ℕ) : Length ν → Option ℕ
  | const size => some (size * elem)
  | param source signed =>
    (values source).map fun bytes ↦ toSizeT signed bytes * elem % 256 ^ 8

/-- The size that is written where a constant length is taken for a number of bytes. -/
def Length.byteSize (values : ν → Option (List UInt8)) (elem : ℕ) : Length ν → Option ℕ
  | const size => some size
  | length => length.transferSize values elem

/-- A payload of constant length is written as it is. -/
def Length.compresses (compressible : Bool) : Length ν → Bool
  | const _ => false
  | param .. => compressible

/-! ## Structs

The pointers of a struct are overwritten on the other side, so they are masked when two structs are
compared. -/

namespace DeepMember

/-- The count, from the header of the struct. -/
def countIn (m : DeepMember) (header : List UInt8) : ℕ :=
  leValue ((header.drop m.count).take m.width)

def bytesIn (m : DeepMember) (header : List UInt8) : ℕ := m.countIn header * m.elem % 256 ^ 8

/-- Whether a byte of the struct belongs to the pointer. -/
def covers (m : DeepMember) (i : ℕ) : Bool := m.pointer ≤ i && i < m.pointer + pointerBytes

def setPointer (m : DeepMember) (address : ℕ) (header : List UInt8) : List UInt8 :=
  header.mapIdx fun i b ↦
    if m.covers i then (leBytes pointerBytes address).getD (i - m.pointer) 0 else b

end DeepMember

/-- The struct without its pointers: addresses say nothing on the other side. -/
def StructLayout.mask (layout : StructLayout) (header : List UInt8) : List UInt8 :=
  header.mapIdx fun i b ↦ if layout.members.any (·.covers i) then 0 else b

def writeMembers (header : List UInt8) :
    List DeepMember → List (List UInt8) → Option (List UInt8)
  | [], _ => some []
  | _ :: _, [] => none
  | m :: members, array :: arrays => do
    let written ← writeIf (m.countIn header ≠ 0) (loadContents array (m.bytesIn header))
    let rest ← writeMembers header members arrays
    some (written ++ rest)

/-- The arrays are read, each into storage of its own, and the pointers are set to it; the storage
may not be had. -/
def readMembers (place : ℕ → ℕ → Option ℕ) :
    ℕ → List UInt8 → List DeepMember → Reader UInt8 (List UInt8 × List (List UInt8))
  | _, header, [] => pure (header, [])
  | i, header, m :: members =>
    match place i (m.countIn header) with
    | none => failure
    | some address => do
      let array ← readIf (m.countIn header ≠ 0) (rpcReadBytes (m.bytesIn header))
      -- the client sets the pointer first, which no count can tell
      let rest ← readMembers place (i + 1) (m.setPointer address header) members
      pure (rest.1, array :: rest.2)

/-! ## The wire

Whether payloads are framed is settled for the connection. -/

/-- What both ends of the connection agreed on. -/
structure Wire where
  lz4 : Lz4
  compressLz4 : Bool

/-- `rpc_write_payload` or `rpc_write`. -/
def Wire.payload (wire : Wire) (compressible : Bool) (data : List UInt8) : List UInt8 :=
  if compressible then encode wire.lz4 (payloadFramed wire.compressLz4 data.length) data else data

/-- `rpc_read_payload` or `rpc_read`, with the test of the caller. -/
def Wire.readPayload (wire : Wire) (compressible : Bool) (size : ℕ) :
    Reader UInt8 (List UInt8) :=
  if compressible then fun input ↦
    (unlessNegative
      (readPayloadPart wire.lz4 (payloadFramed wire.compressLz4 size) input size)).map
        fun r ↦ (r.data, r.rest)
  else rpcReadBytes size

/-! ## The request

A fragment is a function from the caller's arguments to the bytes that it writes, or fails. -/

section Client

variable (wire : Wire) (args : Args ν)

/-- The variables of the caller that hold values. -/
def argValues : ν → Option (List UInt8) := fun p ↦ (args p).bytes?

/-- `_requested`: the capacity, when there is an array to be filled. -/
def requestedCount (parameter anchor : ν) : Option ℕ :=
  match args anchor with
  | .null => some 0
  | _ => ((args parameter).load pointerBytes).map leValue

/-- The bytes of a string up to its end. -/
def cString (bytes : List UInt8) : Option (List UInt8) :=
  if 0 ∈ bytes then some (bytes.takeWhile (· ≠ 0) ++ [0]) else none

/-- `client_preflight`, and the rejection of a null struct: whether the call is refused before
anything is written. -/
def clientRejects : Operation ν → Bool
  | .array p true _ (.param source signed) elem _ =>
    ((Length.param source signed).transferSize (argValues args) elem).any (· ≠ 0) && args p = .null
  | .deepStruct p .. => args p = .null
  | _ => false

/-- `client_rpc_write`. -/
def clientRpcWrite : Operation ν → Option (List UInt8)
  | .nullable p send recv size =>
    if send || recv then do
      let data ← writeIf (send = true ∧ args p ≠ .null) ((args p).load size)
      some (leBytes pointerBytes (args p).word ++ data)
    else some []
  | .array p send _ length elem compressible =>
    if send then do
      let size ← length.byteSize (argValues args) elem
      writeIf (size ≠ 0)
        (((args p).load size).map (wire.payload (length.compresses compressible)))
    else some []
  | .inOutCount p anchor => (requestedCount args p anchor).map (leBytes pointerBytes)
  | .optionalArray p _ _ => some (leBytes 1 (if args p ≠ .null then 1 else 0))
  | .deepStruct p send _ layout =>
    if send then
      match args p with
      | .deep _ header arrays =>
        if header.length = layout.size then
          (writeMembers header layout.members arrays).map (header ++ ·)
        else none
      | _ => none
    else some []
  | .nullTerminated p send lengthWidth =>
    if send then
      match args p with
      | .block _ bytes => do
        let string ← cString bytes
        let length := string.length % 256 ^ lengthWidth
        some (leBytes lengthWidth length ++ string.take length)
      | _ => none
    else some []
  | .opaqueType p send _ size =>
    if send then (args p).bytes?.filter (·.length = size) else some []
  | .dereference p send _ size => if send then (args p).load size else some []

def clientRequest (ops : List (Operation ν)) : Option (List UInt8) :=
  (ops.mapM (clientRpcWrite wire args)).map List.flatten

end Client

/-! ## The handler

A local variable has storage, a value, or both. The reads of a handler set them one by one. -/

/-- The local variables that a handler declares for one parameter. -/
structure Local where
  /-- `_null_check`, `_requested` or `_present`. -/
  word : ℕ := 0
  /-- The size of the buffer that was allocated, `none` for `nullptr`. -/
  room : Option ℕ := none
  /-- The variable, or the buffer, once something was stored there. -/
  contents : Option (List UInt8) := none
  /-- The arrays of a struct. -/
  arrays : List (List UInt8) := []
  deriving DecidableEq, Repr

abbrev Locals (ν : Type) := ν → Local

def Locals.values (locals : Locals ν) : ν → Option (List UInt8) := fun p ↦ (locals p).contents

section Server

variable [DecidableEq ν] (wire : Wire) (place : ν → ℕ → ℕ → Option ℕ) (locals : Locals ν)

/-- `server_rpc_read`. -/
def serverRpcRead : Operation ν → Reader UInt8 (Locals ν)
  | .nullable p send recv size =>
    if send || recv then do
      let check ← rpcReadWord pointerBytes
      if send && check ≠ 0 then
        let data ← rpcReadBytes size
        pure (Function.update locals p { word := check, contents := some data })
      else pure (Function.update locals p { word := check })
    else pure locals
  | .array p send _ length elem compressible =>
    match length.transferSize locals.values elem with
    | none => failure
    | some size =>
      if send then do
        let data ← readIf (size ≠ 0) (wire.readPayload compressible size)
        pure (Function.update locals p { room := some size, contents := some data })
      else pure (Function.update locals p { room := some size })
  | .inOutCount p _ => do
    let requested ← rpcReadWord pointerBytes
    pure (Function.update locals p
      { word := requested, contents := some (leBytes pointerBytes requested) })
  | .optionalArray p elem count => do
    let present ← rpcReadWord 1
    let requested := (locals count).word
    pure (Function.update locals p
      { word := present,
        room := if present ≠ 0 ∧ requested ≠ 0 then some (requested * elem % 256 ^ 8) else none })
  | .deepStruct p send _ layout =>
    if send then do
      let header ← rpcReadBytes layout.size
      let struct ← readMembers (place p) 0 header layout.members
      pure (Function.update locals p { contents := some struct.1, arrays := struct.2 })
    else pure locals
  | .nullTerminated p send lengthWidth =>
    if send then do
      let length ← rpcReadWord lengthWidth
      let data ← rpcReadBytes length
      pure (Function.update locals p { room := some length, contents := some data })
    else pure locals
  | .opaqueType p send _ size =>
    if send then do
      let data ← rpcReadBytes size
      pure (Function.update locals p { contents := some data })
    else pure locals
  | .dereference p send _ size =>
    if send then do
      let data ← rpcReadBytes size
      pure (Function.update locals p { contents := some data })
    else pure locals

/-- The reads of a handler, in the order of the list. -/
def serverRead : List (Operation ν) → Locals ν → Reader UInt8 (Locals ν)
  | [], locals => pure locals
  | op :: ops, locals => do
    let locals ← serverRpcRead wire place locals op
    serverRead ops locals

omit [DecidableEq ν] in
/-- Memory whose contents were read, or that is to be filled. -/
def bufferReference (send : Bool) (size : ℕ) (contents : Option (List UInt8)) : Option Seen :=
  if send then contents.map .memory else some (.room size)

/-- `server_reference`. -/
def serverReference : Operation ν → Option Seen
  | .nullable p send _ size =>
    if (locals p).word ≠ 0 then bufferReference send size (locals p).contents else some .null
  | .array p send _ length elem _ => do
    let size ← length.transferSize locals.values elem
    match length with
    | .const _ => bufferReference send size (locals p).contents
    | .param .. =>
      if size = 0 then some .null else bufferReference send size (locals p).contents
  | .inOutCount p _ => (locals p).contents.map .memory
  | .optionalArray p _ _ => some (((locals p).room.map Seen.room).getD .null)
  | .deepStruct p send _ layout =>
    if send then
      (locals p).contents.map fun header ↦ .deep (layout.mask header) (locals p).arrays
    else some (.room layout.size)
  | .nullTerminated p send _ => if send then (locals p).contents.map .memory else some .null
  | .opaqueType p _ recv _ =>
    (locals p).contents.map fun bytes ↦ if recv then .memory bytes else .value bytes
  | .dereference p send _ size => bufferReference send size (locals p).contents

/-- What the function left is in the variables that it was given. A variable that it left alone is
as it was, which may be without a value. -/
def afterCall (left : ν → Option Left) (ops : List (Operation ν)) : Locals ν := fun p ↦
  match left p with
  | some l =>
    if ops.any fun op ↦ op.parameter = p && op.receives then
      { locals p with contents := some l.contents, arrays := l.arrays }
    else locals p
  | none => locals p

/-- `server_rpc_write`. -/
def serverRpcWrite : Operation ν → Option (List UInt8)
  | .nullable p _ recv size =>
    if recv then do
      let data ← writeIf ((locals p).word ≠ 0) ((locals p).contents.bind (loadContents · size))
      some (leBytes pointerBytes (locals p).word ++ data)
    else some []
  | .array p _ recv length elem compressible =>
    if recv then do
      let size ← length.byteSize locals.values elem
      writeIf (size ≠ 0) (((locals p).contents.bind (loadContents · size)).map
        (wire.payload (length.compresses compressible)))
    else some []
  | .inOutCount p _ => (locals p).contents.bind (loadContents · pointerBytes)
  | .optionalArray p elem count => do
    let total ← (locals count).contents
    if (locals p).word ≠ 0 ∧ leValue total ≠ 0 then do
      let room ← (locals p).room
      let size := leValue total * elem % 256 ^ 8
      if size ≤ room then (locals p).contents.bind (loadContents · size) else none
    else some []
  | .deepStruct p _ recv layout =>
    if recv then do
      let header ← (locals p).contents
      if header.length = layout.size then
        (writeMembers header layout.members (locals p).arrays).map (header ++ ·)
      else none
    else some []
  | .nullTerminated .. => some []
  | .opaqueType p _ recv size =>
    if recv then (locals p).contents.bind (loadContents · size) else some []
  | .dereference p _ recv size =>
    if recv then (locals p).contents.bind (loadContents · size) else some []

def serverResponse (ops : List (Operation ν)) : Option (List UInt8) :=
  (ops.mapM (serverRpcWrite wire locals)).map List.flatten

end Server

/-! ## The response

The stub reads into the memory of the caller, whose counts may have changed by then. -/

section Response

variable [DecidableEq ν] (wire : Wire) (cache : ν → ℕ → ℕ → Option ℕ) (args : Args ν)

def storeAt (p : ν) (data : List UInt8) : Reader UInt8 (Args ν) :=
  match (args p).store data with
  | some arg => pure (Function.update args p arg)
  | none => failure

/-- `client_rpc_read`, into the memory of the caller as it is by now. -/
def clientRpcRead : Operation ν → Reader UInt8 (Args ν)
  | .nullable p _ recv size =>
    if recv then do
      let check ← rpcReadWord pointerBytes
      if check ≠ 0 then
        let data ← rpcReadBytes size
        storeAt args p data
      else pure args
    else pure args
  | .array p _ recv length elem compressible =>
    if recv then
      match length.byteSize (argValues args) elem with
      | none => failure
      | some size =>
        if size ≠ 0 then do
          let data ← wire.readPayload (length.compresses compressible) size
          storeAt args p data
        else pure args
    else pure args
  | .inOutCount p _ => do
    let data ← rpcReadBytes pointerBytes
    storeAt args p data
  | .optionalArray p elem count =>
    if args p ≠ .null then
      match (args count).load pointerBytes with
      | none => failure
      | some total =>
        if leValue total ≠ 0 then do
          let data ← rpcReadBytes (leValue total * elem % 256 ^ 8)
          storeAt args p data
        else pure args
    else pure args
  | .deepStruct p _ recv layout =>
    if recv then
      match args p with
      | .deep address _ _ => do
        let header ← rpcReadBytes layout.size
        let struct ← readMembers (cache p) 0 header layout.members
        pure (Function.update args p (.deep address struct.1 struct.2))
      | _ => failure
    else pure args
  | .nullTerminated .. => pure args
  | .opaqueType p _ recv size =>
    if recv then do
      let data ← rpcReadBytes size
      pure (Function.update args p (.value data))
    else pure args
  | .dereference p _ recv size =>
    if recv then do
      let data ← rpcReadBytes size
      storeAt args p data
    else pure args

def clientRead : List (Operation ν) → Args ν → Reader UInt8 (Args ν)
  | [], args => pure args
  | op :: ops, args => do
    let args ← clientRpcRead wire cache args op
    clientRead ops args

end Response

end Codegen

end Lupine
