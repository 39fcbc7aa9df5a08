import Mathlib.Algebra.GroupWithZero.Nat
import Mathlib.Algebra.Ring.Int.Defs

/-!
# cuBLAS calls as requests

Every computing function of cuBLAS becomes one request with a fixed set of fields, and the server
turns the fields back into the arguments of the function it calls. A scalar goes by value in host
pointer mode and as the caller's device pointer otherwise, and which field carries the pointer
differs from one family of functions to the next: a function with one scalar uses `c`, which it has
no other use for, and a function with two uses `d` and `workspace`.

The fields that choose the route, the context and the asynchronous reply are left out; they do not
enter the call that the server makes.

## Families

What a function puts where depends on its scalars only: none, one, two, two in the fields of the
oldest functions, or a result that is written. The client's helpers are named after the macros and
functions of the source where it has them, and after the family where it repeats the code.
-/

namespace Lupine

/-- The bytes at a host address. -/
abbrev HostBytes := ℕ → UInt8

/-- A scalar argument: the pointer, and the host bytes it leads to in host pointer mode. -/
structure ScalarArg where
  pointer : ℕ
  bytes : HostBytes

/-- The integer arguments, under the request's names for them (`attrib` is its `attribute`). A
function that lacks one leaves it at zero. -/
structure CublasShape where
  transa : ℤ := 0
  transb : ℤ := 0
  m : ℤ := 0
  n : ℤ := 0
  k : ℤ := 0
  lda : ℤ := 0
  ldb : ℤ := 0
  ldc : ℤ := 0
  value : ℤ := 0
  attrib : ℤ := 0
  strideA : ℤ := 0
  strideB : ℤ := 0
  strideC : ℤ := 0
  batchCount : ℤ := 0
  deriving DecidableEq, Repr

structure CublasTypes where
  aType : ℤ := 0
  bType : ℤ := 0
  cType : ℤ := 0
  computeType : ℤ := 0
  algorithm : ℤ := 0
  deriving DecidableEq, Repr

/-- The arguments of a computing function. What is written comes last: the right-hand sides of a
solver are its `c`, and the result of a reduction is its `c`. -/
structure CublasArgs where
  shape : CublasShape := {}
  types : CublasTypes := {}
  a : ℕ := 0
  b : ℕ := 0
  c : ℕ := 0
  alpha : ScalarArg := ⟨0, fun _ ↦ 0⟩
  beta : ScalarArg := ⟨0, fun _ ↦ 0⟩

/-- `struct handle_entry`: what the client keeps for a remote handle. -/
structure HandleEntry where
  mathMode : ℤ := 0
  pointerMode : ℤ := 0
  stream : ℕ := 0
  workspace : ℕ := 0
  workspaceSize : ℕ := 0
  /-- Bit 0 stands for the stream, 1 for the workspace, 2 and 3 for the two modes. -/
  dirtyState : BitVec 32 := 0
  deriving DecidableEq, Repr

inductive CublasOpcode where
  | sgemm | gemmEx | sgemmEx | gemmStridedBatchedEx
  | cgemm | zgemm | dgemmBatched | zgemmStridedBatched | cgemmStridedBatched
  | sgemv | dgemv | cgemv | zgemv
  | strsmBatched | ctrsmBatched | dtrsmBatched | ztrsmBatched | dtrsm | daxpy | dscal
  | dcopy | dswap
  | sgetrsBatched | cgetrsBatched | zgetrsBatched | dgetrsBatched
  | sgetrfBatched | cgetrfBatched | dgetrfBatched
  | sgelsBatched | dgelsBatched | cgelsBatched | zgelsBatched
  | sgeqrfBatched | dgeqrfBatched | cgeqrfBatched | zgeqrfBatched
  | sdot | dotEx | cdotu | cdotc | zdotu | zdotc | dnrm2 | dasum | idamax | idamin
  deriving DecidableEq, Repr

/-- `struct request`. -/
structure CublasRequest where
  opcode : CublasOpcode
  stream : ℕ := 0
  workspace : ℕ := 0
  workspaceSize : ℕ := 0
  a : ℕ := 0
  b : ℕ := 0
  c : ℕ := 0
  d : ℕ := 0
  shape : CublasShape := {}
  types : CublasTypes := {}
  alpha : HostBytes := fun _ ↦ 0
  beta : HostBytes := fun _ ↦ 0
  scalarSize : ℕ := 0
  alphaData : HostBytes := fun _ ↦ 0
  betaData : HostBytes := fun _ ↦ 0
  handleStateMask : BitVec 32 := 0
  mathMode : ℤ := 0
  pointerMode : ℤ := 0

/-! ## The client

Every computing function fills in a request of zeros. A function that needs its scalars on the host
returns an error in device pointer mode, and no request is made. -/

/-- A scalar copied by `memcpy` into the zeros of a fresh request. -/
def ScalarArg.copy (s : ScalarArg) (size : ℕ) : HostBytes :=
  fun i ↦ if i < size then s.bytes i else 0

section Client

variable (opcode : CublasOpcode) (size : ℕ) (args : CublasArgs) (entry : HandleEntry)

/-- `return 15` without a call: the function takes its scalars from the host only. -/
def hostScalars : Except ℤ CublasRequest :=
  if entry.pointerMode ≠ 0 then
    .error 15
  else
    .ok
      { opcode, a := args.a, b := args.b, c := args.c, shape := args.shape, types := args.types
        scalarSize := size, alphaData := args.alpha.copy size, betaData := args.beta.copy size }

/-- The two oldest functions pass their scalars in `alpha` and `beta`. -/
def floatScalars : Except ℤ CublasRequest :=
  if entry.pointerMode ≠ 0 then
    .error 15
  else
    .ok
      { opcode, a := args.a, b := args.b, c := args.c, shape := args.shape, types := args.types
        alpha := args.alpha.copy 4, beta := args.beta.copy 4 }

/-- Two scalars by value, or the device pointers to them in `d` and `workspace`. -/
def twoScalars : Except ℤ CublasRequest :=
  let request : CublasRequest :=
    { opcode, a := args.a, b := args.b, c := args.c, shape := args.shape, types := args.types
      scalarSize := size }
  if entry.pointerMode = 0 then
    .ok { request with alphaData := args.alpha.copy size, betaData := args.beta.copy size }
  else
    .ok { request with d := args.alpha.pointer, workspace := args.beta.pointer }

/-- `DEFINE_COMPLEX_GEMV_RPC`: null scalars are refused in host pointer mode. -/
def complexGemv : Except ℤ CublasRequest :=
  if entry.pointerMode = 0 ∧ (args.alpha.pointer = 0 ∨ args.beta.pointer = 0) then
    .error 7
  else
    twoScalars opcode size args entry

/-- One scalar by value, or the device pointer to it in `c`. -/
def oneScalar : Except ℤ CublasRequest :=
  let request : CublasRequest := { opcode, a := args.a, b := args.b, shape := args.shape }
  if entry.pointerMode = 0 then
    .ok { request with alphaData := args.alpha.copy size }
  else
    .ok { request with c := args.alpha.pointer }

def noScalars : Except ℤ CublasRequest :=
  .ok { opcode, a := args.a, b := args.b, c := args.c, shape := args.shape, types := args.types }

/-- A reduction, with the size of its result. -/
def reduction : Except ℤ CublasRequest :=
  .ok
    { opcode, a := args.a, b := args.b, c := args.c, shape := args.shape, types := args.types
      scalarSize := size }

end Client

/-- `scalar_size_for_compute_type`. -/
def scalarSizeForComputeType (computeType : ℤ) : ℕ :=
  if computeType = 64 ∨ computeType = 65 then 2
  else if computeType = 70 ∨ computeType = 71 then 8
  else 4

/-- `cuda_data_type_size`. -/
def cudaDataTypeSize (type : ℤ) : ℕ :=
  if type ∈ [0, 10, 12] then 4
  else if type ∈ [1, 24, 26] then 8
  else if type ∈ [2, 14, 20, 22] then 2
  else if type ∈ [4, 11, 13] then 8
  else if type ∈ [5, 25, 27] then 16
  else if type ∈ [6, 15, 21, 23] then 4
  else if type ∈ [3, 7, 8, 9, 28, 29, 30] then 1
  else 0

inductive CublasFunction where
  | sgemm | sgemmEx | gemmEx | dgemm
  | gemmStridedBatchedEx | dgemmStridedBatched | sgemmStridedBatched
  | cgemm | zgemm | dgemmBatched | zgemmStridedBatched | cgemmStridedBatched
  | sgemv | dgemv | cgemv | zgemv
  | strsmBatched | ctrsmBatched | dtrsmBatched | ztrsmBatched | dtrsm | daxpy | dscal
  | dcopy | dswap
  | sgetrsBatched | cgetrsBatched | zgetrsBatched | dgetrsBatched
  | sgetrfBatched | cgetrfBatched | dgetrfBatched
  | sgelsBatched | dgelsBatched | cgelsBatched | zgelsBatched
  | sgeqrfBatched | dgeqrfBatched | cgeqrfBatched | zgeqrfBatched
  | sdot | dotEx | ddot | cdotu | cdotc | zdotu | zdotc | dnrm2 | dasum | idamax | idamin
  deriving DecidableEq, Repr

/-- `cublasGemmEx`. -/
def cublasGemmEx (args : CublasArgs) : HandleEntry → Except ℤ CublasRequest :=
  hostScalars .gemmEx (scalarSizeForComputeType args.types.computeType) args

/-- `cublasGemmStridedBatchedEx`. -/
def cublasGemmStridedBatchedEx (args : CublasArgs) : HandleEntry → Except ℤ CublasRequest :=
  hostScalars .gemmStridedBatchedEx (scalarSizeForComputeType args.types.computeType) args

/-- `cublasDotEx`. A result type without a size is refused. -/
def cublasDotEx (args : CublasArgs) : HandleEntry → Except ℤ CublasRequest :=
  fun _ ↦
    if cudaDataTypeSize args.types.cType = 0 then .error 15
    else reduction .dotEx (cudaDataTypeSize args.types.cType) args

/-- The request that each function fills in, before the handle's state is added to it. -/
def CublasFunction.request (args : CublasArgs) (entry : HandleEntry) :
    CublasFunction → Except ℤ CublasRequest
  | sgemm => floatScalars .sgemm args entry
  | sgemmEx => floatScalars .sgemmEx args entry
  | gemmEx => cublasGemmEx args entry
  | dgemm => cublasGemmEx { args with types := ⟨1, 1, 1, 70, -1⟩ } entry
  | gemmStridedBatchedEx => cublasGemmStridedBatchedEx args entry
  | dgemmStridedBatched => cublasGemmStridedBatchedEx { args with types := ⟨1, 1, 1, 70, -1⟩ } entry
  | sgemmStridedBatched =>
    hostScalars .gemmStridedBatchedEx 4 { args with types := ⟨0, 0, 0, 68, -1⟩ } entry
  | cgemm => twoScalars .cgemm 8 args entry
  | zgemm =>
    twoScalars (if entry.pointerMode = 0 then .gemmEx else .zgemm) 16
      { args with types := ⟨5, 5, 5, 70, -1⟩ } entry
  | dgemmBatched => twoScalars .dgemmBatched 8 args entry
  | zgemmStridedBatched =>
    twoScalars (if entry.pointerMode = 0 then .gemmStridedBatchedEx else .zgemmStridedBatched) 16
      { args with types := ⟨5, 5, 5, 70, -1⟩ } entry
  | cgemmStridedBatched => twoScalars .cgemmStridedBatched 8 args entry
  | sgemv => twoScalars .sgemv 4 args entry
  | dgemv => twoScalars .dgemv 8 args entry
  | cgemv => complexGemv .cgemv 8 args entry
  | zgemv => complexGemv .zgemv 16 args entry
  | strsmBatched => oneScalar .strsmBatched 4 args entry
  | ctrsmBatched => oneScalar .ctrsmBatched 8 args entry
  | dtrsmBatched => oneScalar .dtrsmBatched 8 args entry
  | ztrsmBatched => oneScalar .ztrsmBatched 16 args entry
  | dtrsm => oneScalar .dtrsm 8 args entry
  | daxpy => oneScalar .daxpy 8 args entry
  | dscal => oneScalar .dscal 8 args entry
  | dcopy => noScalars .dcopy args
  | dswap => noScalars .dswap args
  | sgetrsBatched => noScalars .sgetrsBatched args
  | cgetrsBatched => noScalars .cgetrsBatched args
  | zgetrsBatched => noScalars .zgetrsBatched args
  | dgetrsBatched => noScalars .dgetrsBatched args
  | sgetrfBatched => noScalars .sgetrfBatched args
  | cgetrfBatched => noScalars .cgetrfBatched args
  | dgetrfBatched => noScalars .dgetrfBatched args
  | sgelsBatched => noScalars .sgelsBatched args
  | dgelsBatched => noScalars .dgelsBatched args
  | cgelsBatched => noScalars .cgelsBatched args
  | zgelsBatched => noScalars .zgelsBatched args
  | sgeqrfBatched => noScalars .sgeqrfBatched args
  | dgeqrfBatched => noScalars .dgeqrfBatched args
  | cgeqrfBatched => noScalars .cgeqrfBatched args
  | zgeqrfBatched => noScalars .zgeqrfBatched args
  | sdot => reduction .sdot 0 args
  | dotEx => cublasDotEx args entry
  | ddot => cublasDotEx { args with types := ⟨1, 1, 1, 1, 0⟩ } entry
  | cdotu => reduction .cdotu 8 args
  | cdotc => reduction .cdotc 8 args
  | zdotu => reduction .zdotu 16 args
  | zdotc => reduction .zdotc 16 args
  | dnrm2 => reduction .dnrm2 0 args
  | dasum => reduction .dasum 0 args
  | idamax => reduction .idamax 0 args
  | idamin => reduction .idamin 0 args

/-- `remote_call_response`: the state of the handle is written into the request. -/
def remoteCallResponse (entry : HandleEntry) (request : CublasRequest) : CublasRequest :=
  { request with
    handleStateMask := entry.dirtyState
    stream := entry.stream
    workspace := entry.workspace
    workspaceSize := entry.workspaceSize
    mathMode := entry.mathMode
    pointerMode := entry.pointerMode }

/-! ## The server

The server reads the opcode first, and then takes from the request what the function of the opcode
has for arguments. -/

/-- Where a cuBLAS function is told to find a scalar. -/
inductive ScalarSource where
  | host (bytes : HostBytes)
  | device (pointer : ℕ)

/-- The arguments of one call of a cuBLAS function. The result of a reduction has a place only when
it is written by the device. -/
structure LibraryCall where
  shape : CublasShape
  operands : List ℕ
  alpha : Option ScalarSource := none
  beta : Option ScalarSource := none
  result : Option ℕ := none

section Server

variable (request : CublasRequest)

/-- The server's choice of the first and of the second scalar, and of the place of a result. -/
def pickScalar (bytes : HostBytes) (pointer : ℕ) : ScalarSource :=
  if request.pointerMode = 0 then .host bytes else .device pointer

/-- The case of the opcode in `handle_manual_lupineCublasCall`. -/
def serverCall : Except ℤ LibraryCall :=
  let r := request
  match r.opcode with
  | .sgemm | .sgemmEx =>
    .ok { shape := r.shape, operands := [r.a, r.b, r.c], alpha := some (.host r.alpha),
          beta := some (.host r.beta) }
  | .gemmEx | .gemmStridedBatchedEx =>
    if r.scalarSize > 16 then .error 13
    else .ok { shape := r.shape, operands := [r.a, r.b, r.c], alpha := some (.host r.alphaData),
               beta := some (.host r.betaData) }
  | .cgemm | .zgemm | .dgemmBatched | .zgemmStridedBatched | .cgemmStridedBatched
  | .sgemv | .dgemv | .cgemv | .zgemv =>
    .ok { shape := r.shape, operands := [r.a, r.b, r.c]
          alpha := some (pickScalar r r.alphaData r.d)
          beta := some (pickScalar r r.betaData r.workspace) }
  | .strsmBatched | .ctrsmBatched | .dtrsmBatched | .ztrsmBatched | .dtrsm | .daxpy =>
    .ok { shape := r.shape, operands := [r.a, r.b]
          alpha := some (pickScalar r r.alphaData r.c) }
  | .dscal =>
    .ok { shape := r.shape, operands := [r.a], alpha := some (pickScalar r r.alphaData r.c) }
  | .dcopy | .dswap
  | .sgeqrfBatched | .dgeqrfBatched | .cgeqrfBatched | .zgeqrfBatched =>
    .ok { shape := r.shape, operands := [r.a, r.b] }
  | .sgetrsBatched | .cgetrsBatched | .zgetrsBatched | .dgetrsBatched
  | .sgetrfBatched | .cgetrfBatched | .dgetrfBatched
  | .sgelsBatched | .dgelsBatched | .cgelsBatched | .zgelsBatched =>
    .ok { shape := r.shape, operands := [r.a, r.b, r.c] }
  | .sdot | .dotEx =>
    .ok { shape := r.shape, operands := [r.a, r.b]
          result := if r.pointerMode = 0 then none else some r.c }
  | .cdotu | .cdotc | .zdotu | .zdotc =>
    if r.scalarSize > 16 then .error 13
    else .ok { shape := r.shape, operands := [r.a, r.b]
               result := if r.pointerMode = 0 then none else some r.c }
  | .dnrm2 | .dasum | .idamax | .idamin =>
    .ok { shape := r.shape, operands := [r.a]
          result := if r.pointerMode = 0 then none else some r.c }

end Server

end Lupine
