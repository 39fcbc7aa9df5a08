import Lupine.Cublas.Requests
import Lupine.Foundation.Machine

/-!
# The state of a cuBLAS handle, kept lazily

The setters of a remote handle make no round trip. The client keeps the stream, the workspace and
the two modes in the handle's entry, marks what was changed in a mask, and writes all four into the
next request; the server sets what is marked before it makes the call. The mask is never cleared, so
every later call sets the same things again.

The reference is a handle to which every setter was forwarded at once. The two agree for as long as
no setter is skipped that the library would have acted on, and a setter is skipped when the entry
holds its value already. Setting a stream drops the program's workspace, and a null workspace in the
entry stands for both a dropped one and one that was set to null, so a skipped setter can differ.

## The workspace as an operand

The state is written into the request after the function's own arguments, and `workspace` is one of
its fields. A function with two scalars passes the second one's device pointer in that field.

## Two handles side by side

A run has the remote handle and the one to which every setter was forwarded. They agree once the
marked parts of the entry are set, as far as the library accepts them. Each of the four parts is a
`Tracks` of its own, with one lemma for a setter that is skipped and one for a setter that is not;
the stream and the workspace are the only two that bear on each other.
-/

open Foundation

namespace Lupine

/-! ## The library

All that is known of the library is the status that a setter returns and the lengths of scalars. A
setter that is accepted has the effect written here, whatever else the library does. -/

inductive CublasSetter where
  | stream (value : ℕ)
  | workspace (pointer size : ℕ)
  | mathMode (value : ℤ)
  | pointerMode (value : ℤ)
  deriving DecidableEq, Repr

/-- The cuBLAS library of the server: the status a setter returns, and how long the scalars are of a
call that names its types. -/
structure Cublas where
  status : CublasSetter → ℤ
  scaleSize : CublasTypes → ℕ

/-- The state of a handle inside the library, which has a pool of its own. -/
structure LibraryHandle where
  stream : ℕ := 0
  workspace : Option (ℕ × ℕ) := none
  mathMode : ℤ := 0
  pointerMode : ℤ := 0
  deriving DecidableEq, Repr

/-- What a setter does. A new stream drops the workspace. -/
def LibraryHandle.set (handle : LibraryHandle) : CublasSetter → LibraryHandle
  | .stream value => { handle with stream := value, workspace := none }
  | .workspace pointer size => { handle with workspace := some (pointer, size) }
  | .mathMode value => { handle with mathMode := value }
  | .pointerMode value => { handle with pointerMode := value }

inductive ScalarValue where
  | value (bytes : List UInt8)
  | device (pointer : ℕ)
  deriving DecidableEq, Repr

def ScalarSource.read (size : ℕ) : ScalarSource → ScalarValue
  | .host bytes => .value ((List.range size).map bytes)
  | .device pointer => .device pointer

/-- A call that the library makes, with everything it makes it with. -/
structure CublasCall where
  handle : LibraryHandle
  shape : CublasShape
  operands : List ℕ
  alpha : Option ScalarValue
  beta : Option ScalarValue
  result : Option ℕ
  deriving DecidableEq, Repr

/-- A call on a handle, with scalars of so many bytes. -/
def LibraryCall.on (call : LibraryCall) (handle : LibraryHandle) (size : ℕ) : CublasCall where
  handle := handle
  shape := call.shape
  operands := call.operands
  alpha := call.alpha.map (·.read size)
  beta := call.beta.map (·.read size)
  result := call.result

/-! ## A call made directly

The functions fall into families by how they take their scalars. A family has one description of its
operands, its scalars and the request that the client makes. -/

/-- How a function takes its scalars, as far as the client is concerned. -/
inductive CublasFamily where
  | hostScalars
  | twoScalars
  | oneScalar
  | noScalars
  | reduction
  deriving DecidableEq, Repr

namespace CublasFunction

def family : CublasFunction → CublasFamily
  | sgemm | sgemmEx | gemmEx | dgemm
  | gemmStridedBatchedEx | dgemmStridedBatched | sgemmStridedBatched => .hostScalars
  | cgemm | zgemm | dgemmBatched | zgemmStridedBatched | cgemmStridedBatched
  | sgemv | dgemv | cgemv | zgemv => .twoScalars
  | strsmBatched | ctrsmBatched | dtrsmBatched | ztrsmBatched | dtrsm | daxpy | dscal => .oneScalar
  | dcopy | dswap
  | sgetrsBatched | cgetrsBatched | zgetrsBatched | dgetrsBatched
  | sgetrfBatched | cgetrfBatched | dgetrfBatched
  | sgelsBatched | dgelsBatched | cgelsBatched | zgelsBatched
  | sgeqrfBatched | dgeqrfBatched | cgeqrfBatched | zgeqrfBatched => .noScalars
  | sdot | dotEx | ddot | cdotu | cdotc | zdotu | zdotc | dnrm2 | dasum | idamax | idamin =>
    .reduction

/-- The pointers to vectors and matrices that a function is given. -/
def operands (args : CublasArgs) : CublasFunction → List ℕ
  | dscal | dnrm2 | dasum | idamax | idamin => [args.a]
  | strsmBatched | ctrsmBatched | dtrsmBatched | ztrsmBatched | dtrsm | daxpy | dcopy | dswap
  | sgeqrfBatched | dgeqrfBatched | cgeqrfBatched | zgeqrfBatched
  | sdot | dotEx | ddot | cdotu | cdotc | zdotu | zdotc => [args.a, args.b]
  | _ => [args.a, args.b, args.c]

/-- The bytes of a scalar that the function reads. -/
def scaleSize (lib : Cublas) (args : CublasArgs) : CublasFunction → ℕ
  | gemmEx | gemmStridedBatchedEx => lib.scaleSize args.types
  | sgemm | sgemmEx | sgemmStridedBatched | sgemv | strsmBatched => 4
  | zgemm | zgemmStridedBatched | zgemv | ztrsmBatched => 16
  | _ => 8

end CublasFunction

/-- A call of a function with these scalars, of which it takes as many as it has. -/
def CublasFunction.call (function : CublasFunction) (args : CublasArgs) (pointerMode : ℤ)
    (alpha beta : ScalarSource) : LibraryCall :=
  let call : LibraryCall := { shape := args.shape, operands := function.operands args }
  match function.family with
  | .hostScalars | .twoScalars => { call with alpha := some alpha, beta := some beta }
  | .oneScalar => { call with alpha := some alpha }
  | .noScalars => call
  | .reduction => { call with result := if pointerMode = 0 then none else some args.c }

def ScalarArg.source (scalar : ScalarArg) (pointerMode : ℤ) : ScalarSource :=
  if pointerMode = 0 then .host scalar.bytes else .device scalar.pointer

/-- The call that a function makes of its arguments without anything in between. -/
def CublasFunction.direct (function : CublasFunction) (args : CublasArgs) (pointerMode : ℤ) :
    LibraryCall :=
  function.call args pointerMode (args.alpha.source pointerMode) (args.beta.source pointerMode)

/-! ## The setters

A setter of the client compares and marks; it is sent with the next request, in an order of its
own. -/

/-- What a setter does to the entry: `cublasSetStream_v2`, `cublasSetWorkspace_v2` and
`set_integer`. The value that the entry holds is not set again. -/
def HandleEntry.set (entry : HandleEntry) : CublasSetter → HandleEntry
  | .stream value =>
    if entry.stream = value ∧ entry.workspace = 0 then entry
    else
      { entry with
        stream := value
        workspace := 0
        workspaceSize := 0
        dirtyState := (entry.dirtyState &&& ~~~2#32) ||| 1#32 }
  | .workspace pointer size =>
    if entry.workspace = pointer ∧ entry.workspaceSize = size then entry
    else
      { entry with
        workspace := pointer
        workspaceSize := size
        dirtyState := entry.dirtyState ||| 2#32 }
  | .mathMode value =>
    if entry.mathMode = value then entry
    else { entry with mathMode := value, dirtyState := entry.dirtyState ||| 4#32 }
  | .pointerMode value =>
    if entry.pointerMode = value then entry
    else { entry with pointerMode := value, dirtyState := entry.dirtyState ||| 8#32 }

/-- The setters that the server calls first, in this order. -/
def CublasRequest.setters (request : CublasRequest) : List CublasSetter :=
  (if request.handleStateMask.getLsbD 0 then [.stream request.stream] else []) ++
  (if request.handleStateMask.getLsbD 1 then
    [.workspace request.workspace request.workspaceSize] else []) ++
  (if request.handleStateMask.getLsbD 2 then [.mathMode request.mathMode] else []) ++
  (if request.handleStateMask.getLsbD 3 then [.pointerMode request.pointerMode] else [])

namespace Cublas

variable (lib : Cublas)

/-- A setter forwarded to the library, which may refuse it. -/
def forward (handle : LibraryHandle) (setter : CublasSetter) : LibraryHandle :=
  if lib.status setter = 0 then handle.set setter else handle

/-- Setters called one after the other, up to the first one that is refused. -/
def setAll (handle : LibraryHandle) : List CublasSetter → LibraryHandle × ℤ
  | [] => (handle, 0)
  | setter :: rest =>
    if lib.status setter = 0 then setAll (handle.set setter) rest
    else (handle, lib.status setter)

end Cublas

/-! ## The remote handle

A call of the program is answered by the library or by the client alone, which refuses what it has
no request for. -/

/-- What comes of a call: the library makes one, or the program gets a status. -/
inductive CublasAnswer where
  | called (call : CublasCall)
  | refused (status : ℤ)
  deriving DecidableEq, Repr

/-- A remote handle, and one to which every setter was forwarded. -/
structure CublasState where
  entry : HandleEntry := {}
  server : LibraryHandle := {}
  forwarded : LibraryHandle := {}
  deriving DecidableEq, Repr

inductive CublasAction where
  | set (setter : CublasSetter)
  | compute (function : CublasFunction) (args : CublasArgs)

section Compute

variable (lib : Cublas) (st : CublasState) (function : CublasFunction) (args : CublasArgs)

/-- A computing call: the handle of the server afterwards, and the answer. -/
def CublasState.compute : LibraryHandle × CublasAnswer :=
  match function.request args st.entry with
  | .error status => (st.server, .refused status)
  | .ok request =>
    let request := remoteCallResponse st.entry request
    let (handle, status) := lib.setAll st.server request.setters
    if status = 0 then
      match serverCall request with
      | .error status => (handle, .refused status)
      | .ok call => (handle, .called (call.on handle (function.scaleSize lib args)))
    else
      (handle, .refused status)

def CublasState.directCall : CublasCall :=
  (function.direct args st.forwarded.pointerMode).on st.forwarded (function.scaleSize lib args)

end Compute

def cublasStep (lib : Cublas) (st : CublasState) : CublasAction → Option CublasState
  | .set setter =>
    some
      { st with entry := st.entry.set setter, forwarded := lib.forward st.forwarded setter }
  | .compute function args => some { st with server := (st.compute lib function args).1 }

def cublasHandle (lib : Cublas) : Machine CublasState CublasAction where
  step := cublasStep lib

/-! ## When it goes well

A setter is skipped when the entry holds its value. That takes effect unless a new stream would drop
a workspace, or a null workspace has two meanings. -/

/-- No setter is skipped that the library would have acted on: a stream while a null workspace is
set, or a null workspace while none is. -/
def TakesEffect (lib : Cublas) (st : CublasState) : CublasAction → Prop
  | .set (.stream value) =>
    lib.status (.stream value) = 0 → st.entry.stream = value → st.entry.workspace = 0 →
      st.entry.dirtyState.getLsbD 1 = false
  | .set (.workspace pointer size) =>
    lib.status (.workspace pointer size) = 0 → st.entry.workspace = pointer →
      st.entry.workspaceSize = size → st.entry.dirtyState.getLsbD 1 = true
  | .set (.mathMode _) | .set (.pointerMode _) | .compute .. => True

instance (lib : Cublas) (st : CublasState) : ∀ action, Decidable (TakesEffect lib st action)
  | .set (.stream _) => inferInstanceAs (Decidable (_ → _ → _ → _))
  | .set (.workspace _ _) => inferInstanceAs (Decidable (_ → _ → _ → _))
  | .set (.mathMode _) | .set (.pointerMode _) | .compute .. => inferInstanceAs (Decidable True)

/-- The library accepts all that is marked in the entry. -/
structure HandleEntry.Accepted (lib : Cublas) (entry : HandleEntry) : Prop where
  stream : entry.dirtyState.getLsbD 0 → lib.status (.stream entry.stream) = 0
  workspace : entry.dirtyState.getLsbD 1 →
    lib.status (.workspace entry.workspace entry.workspaceSize) = 0
  mathMode : entry.dirtyState.getLsbD 2 → lib.status (.mathMode entry.mathMode) = 0
  pointerMode : entry.dirtyState.getLsbD 3 → lib.status (.pointerMode entry.pointerMode) = 0

/-- The client makes a request of the call. -/
def CublasFunction.Supported (args : CublasArgs) (pointerMode : ℤ) : CublasFunction → Prop
  | cgemv | zgemv => pointerMode = 0 → args.alpha.pointer ≠ 0 ∧ args.beta.pointer ≠ 0
  | dotEx => cudaDataTypeSize args.types.cType ≠ 0
  | function => function.family = .hostScalars → pointerMode = 0

/-- The state does not replace a scalar of the call, and no scalar is longer than what the client
copies of it. -/
def CublasFunction.ScalarsKept (lib : Cublas) (args : CublasArgs) (entry : HandleEntry) :
    CublasFunction → Prop
  | gemmEx | gemmStridedBatchedEx =>
    ∀ i < lib.scaleSize args.types, scalarSizeForComputeType args.types.computeType ≤ i →
      args.alpha.bytes i = 0 ∧ args.beta.bytes i = 0
  | function =>
    function.family = .twoScalars → entry.pointerMode ≠ 0 → entry.workspace = args.beta.pointer

/-! ## What the server receives

Each family has its request, which the server decodes to the call it makes. In a function with two
scalars the second device pointer is gone by then, and two functions are called by the name of a
more general one in host pointer mode. -/

def HandleEntry.setters (entry : HandleEntry) : List CublasSetter :=
  (if entry.dirtyState.getLsbD 0 then [.stream entry.stream] else []) ++
  (if entry.dirtyState.getLsbD 1 then [.workspace entry.workspace entry.workspaceSize] else []) ++
  (if entry.dirtyState.getLsbD 2 then [.mathMode entry.mathMode] else []) ++
  (if entry.dirtyState.getLsbD 3 then [.pointerMode entry.pointerMode] else [])

theorem setters_remoteCallResponse (entry : HandleEntry) (request : CublasRequest) :
    (remoteCallResponse entry request).setters = entry.setters := rfl

namespace CublasFunction

/-- The bytes of a scalar that the client copies. -/
def copySize (args : CublasArgs) : CublasFunction → ℕ
  | gemmEx | gemmStridedBatchedEx => scalarSizeForComputeType args.types.computeType
  | function => function.scaleSize ⟨fun _ ↦ 0, fun _ ↦ 0⟩ args

end CublasFunction

/-- A scalar as the server passes it on: by value, or by the pointer it finds. -/
def HandleEntry.passed (entry : HandleEntry) (scalar : ScalarArg) (size pointer : ℕ) :
    ScalarSource :=
  if entry.pointerMode = 0 then .host (scalar.copy size) else .device pointer

/-- The call that the server makes of the request. -/
def CublasFunction.received (args : CublasArgs) (entry : HandleEntry)
    (function : CublasFunction) : LibraryCall :=
  function.call args entry.pointerMode
    (entry.passed args.alpha (function.copySize args) args.alpha.pointer)
    (entry.passed args.beta (function.copySize args) entry.workspace)

theorem scalarSizeForComputeType_le (computeType : ℤ) :
    scalarSizeForComputeType computeType ≤ 16 := by
  unfold scalarSizeForComputeType
  split_ifs <;> omega

theorem cudaDataTypeSize_le (type : ℤ) : cudaDataTypeSize type ≤ 16 := by
  unfold cudaDataTypeSize
  split_ifs <;> omega

theorem forall_of_opcode {opcode : CublasOpcode} {P : CublasRequest → Prop}
    (h : ∀ r : CublasRequest, P { r with opcode }) : ∀ r, r.opcode = opcode → P r := by
  rintro r rfl
  exact h r

/-- The request of an entry point, and the call that the server makes of it. -/
def Becomes (entry : HandleEntry) (request : Except ℤ CublasRequest) (call : LibraryCall) : Prop :=
  ∃ r, request = .ok r ∧ serverCall (remoteCallResponse entry r) = .ok call

section Families

variable {opcode : CublasOpcode} {size : ℕ} {args : CublasArgs} {entry : HandleEntry}

theorem becomes_floatScalars (hop : opcode = .sgemm ∨ opcode = .sgemmEx)
    (hmode : entry.pointerMode = 0) :
    Becomes entry (floatScalars opcode args entry)
      { shape := args.shape, operands := [args.a, args.b, args.c]
        alpha := some (entry.passed args.alpha 4 args.alpha.pointer)
        beta := some (entry.passed args.beta 4 entry.workspace) } := by
  refine ⟨_, if_neg (not_not.mpr hmode), ?_⟩
  simp only [HandleEntry.passed, if_pos hmode]
  rcases hop with rfl | rfl <;> rfl

theorem becomes_hostScalars (hop : opcode = .gemmEx ∨ opcode = .gemmStridedBatchedEx)
    (hsize : size ≤ 16) (hmode : entry.pointerMode = 0) :
    Becomes entry (hostScalars opcode size args entry)
      { shape := args.shape, operands := [args.a, args.b, args.c]
        alpha := some (entry.passed args.alpha size args.alpha.pointer)
        beta := some (entry.passed args.beta size entry.workspace) } := by
  refine ⟨_, if_neg (not_not.mpr hmode), ?_⟩
  simp only [HandleEntry.passed, if_pos hmode]
  rcases hop with rfl | rfl <;> exact if_neg (Nat.not_lt.mpr hsize)

/-- The second device pointer is gone: the server finds the handle's workspace in its field. -/
theorem becomes_twoScalars
    (hop : ∀ r : CublasRequest, r.opcode = opcode → serverCall r = .ok
      { shape := r.shape, operands := [r.a, r.b, r.c]
        alpha := some (pickScalar r r.alphaData r.d)
        beta := some (pickScalar r r.betaData r.workspace) }) :
    Becomes entry (twoScalars opcode size args entry)
      { shape := args.shape, operands := [args.a, args.b, args.c]
        alpha := some (entry.passed args.alpha size args.alpha.pointer)
        beta := some (entry.passed args.beta size entry.workspace) } := by
  by_cases hmode : entry.pointerMode = 0
  · refine ⟨_, if_pos hmode, (hop _ rfl).trans ?_⟩
    simp only [pickScalar, HandleEntry.passed, remoteCallResponse, hmode, if_true]
  · refine ⟨_, if_neg hmode, (hop _ rfl).trans ?_⟩
    simp only [pickScalar, HandleEntry.passed, remoteCallResponse, hmode, if_false]

theorem becomes_twoScalars_ex {ex : CublasOpcode} (hex : ex = .gemmEx ∨ ex = .gemmStridedBatchedEx)
    (hsize : size ≤ 16)
    (hop : ∀ r : CublasRequest, r.opcode = opcode → serverCall r = .ok
      { shape := r.shape, operands := [r.a, r.b, r.c]
        alpha := some (pickScalar r r.alphaData r.d)
        beta := some (pickScalar r r.betaData r.workspace) }) :
    Becomes entry (twoScalars (if entry.pointerMode = 0 then ex else opcode) size args entry)
      { shape := args.shape, operands := [args.a, args.b, args.c]
        alpha := some (entry.passed args.alpha size args.alpha.pointer)
        beta := some (entry.passed args.beta size entry.workspace) } := by
  by_cases hmode : entry.pointerMode = 0
  · rw [if_pos hmode]
    refine ⟨_, if_pos hmode, ?_⟩
    simp only [HandleEntry.passed, if_pos hmode]
    rcases hex with rfl | rfl <;> exact if_neg (Nat.not_lt.mpr hsize)
  · rw [if_neg hmode]
    exact becomes_twoScalars hop

theorem becomes_complexGemv {call : LibraryCall}
    (hscalars : entry.pointerMode = 0 → args.alpha.pointer ≠ 0 ∧ args.beta.pointer ≠ 0)
    (hcall : Becomes entry (twoScalars opcode size args entry) call) :
    Becomes entry (complexGemv opcode size args entry) call := by
  have hne : ¬ (entry.pointerMode = 0 ∧ (args.alpha.pointer = 0 ∨ args.beta.pointer = 0)) := by
    rintro ⟨hmode, hnull⟩
    exact hnull.elim (hscalars hmode).1 (hscalars hmode).2
  rwa [complexGemv, if_neg hne]

theorem becomes_oneScalar (operands : ℕ → ℕ → List ℕ)
    (hop : ∀ r : CublasRequest, r.opcode = opcode → serverCall r = .ok
      { shape := r.shape, operands := operands r.a r.b
        alpha := some (pickScalar r r.alphaData r.c) }) :
    Becomes entry (oneScalar opcode size args entry)
      { shape := args.shape, operands := operands args.a args.b
        alpha := some (entry.passed args.alpha size args.alpha.pointer) } := by
  by_cases hmode : entry.pointerMode = 0
  · refine ⟨_, if_pos hmode, (hop _ rfl).trans ?_⟩
    simp only [pickScalar, HandleEntry.passed, remoteCallResponse, hmode, if_true]
  · refine ⟨_, if_neg hmode, (hop _ rfl).trans ?_⟩
    simp only [pickScalar, HandleEntry.passed, remoteCallResponse, hmode, if_false]

theorem becomes_noScalars (operands : ℕ → ℕ → ℕ → List ℕ)
    (hop : ∀ r : CublasRequest, r.opcode = opcode → serverCall r = .ok
      { shape := r.shape, operands := operands r.a r.b r.c }) :
    Becomes entry (noScalars opcode args)
      { shape := args.shape, operands := operands args.a args.b args.c } :=
  ⟨_, rfl, hop _ rfl⟩

theorem becomes_reduction (operands : ℕ → ℕ → List ℕ) (hsize : size ≤ 16)
    (hop : ∀ r : CublasRequest, r.opcode = opcode → r.scalarSize ≤ 16 → serverCall r = .ok
      { shape := r.shape, operands := operands r.a r.b
        result := if r.pointerMode = 0 then none else some r.c }) :
    Becomes entry (reduction opcode size args)
      { shape := args.shape, operands := operands args.a args.b
        result := if entry.pointerMode = 0 then none else some args.c } :=
  ⟨_, rfl, hop _ rfl hsize⟩

end Families

namespace CublasFunction

variable {function : CublasFunction} {args : CublasArgs} {entry : HandleEntry}

/-- A supported call becomes a request, and the server makes `received` of it. -/
theorem request_of_supported (h : function.Supported args entry.pointerMode) :
    Becomes entry (function.request args entry) (function.received args entry) := by
  cases function with
  | sgemm | sgemmEx => exact becomes_floatScalars (by simp) (h rfl)
  | gemmEx | dgemm | gemmStridedBatchedEx | dgemmStridedBatched =>
    exact becomes_hostScalars (by simp) (scalarSizeForComputeType_le _) (h rfl)
  | sgemmStridedBatched => exact becomes_hostScalars (by simp) (by simp) (h rfl)
  | cgemm | dgemmBatched | cgemmStridedBatched | sgemv | dgemv =>
    exact becomes_twoScalars (forall_of_opcode fun _ ↦ rfl)
  | zgemm | zgemmStridedBatched =>
    exact becomes_twoScalars_ex (by simp) Nat.le.refl (forall_of_opcode fun _ ↦ rfl)
  | cgemv | zgemv => exact becomes_complexGemv h (becomes_twoScalars (forall_of_opcode fun _ ↦ rfl))
  | strsmBatched | ctrsmBatched | dtrsmBatched | ztrsmBatched | dtrsm | daxpy =>
    exact becomes_oneScalar (fun a b ↦ [a, b]) (forall_of_opcode fun _ ↦ rfl)
  | dscal => exact becomes_oneScalar (fun a _ ↦ [a]) (forall_of_opcode fun _ ↦ rfl)
  | dcopy | dswap | sgeqrfBatched | dgeqrfBatched | cgeqrfBatched | zgeqrfBatched =>
    exact becomes_noScalars (fun a b _ ↦ [a, b]) (forall_of_opcode fun _ ↦ rfl)
  | sgetrsBatched | cgetrsBatched | zgetrsBatched | dgetrsBatched
  | sgetrfBatched | cgetrfBatched | dgetrfBatched
  | sgelsBatched | dgelsBatched | cgelsBatched | zgelsBatched =>
    exact becomes_noScalars (fun a b c ↦ [a, b, c]) (forall_of_opcode fun _ ↦ rfl)
  | sdot => exact becomes_reduction (fun a b ↦ [a, b]) (by simp) (forall_of_opcode fun _ _ ↦ rfl)
  | dotEx =>
    rw [request, cublasDotEx, if_neg h]
    exact becomes_reduction (fun a b ↦ [a, b]) (cudaDataTypeSize_le _)
      (forall_of_opcode fun _ _ ↦ rfl)
  | ddot =>
    exact becomes_reduction (fun a b ↦ [a, b]) (cudaDataTypeSize_le 1)
      (forall_of_opcode fun _ _ ↦ rfl)
  | cdotu | cdotc | zdotu | zdotc =>
    exact becomes_reduction (fun a b ↦ [a, b]) (by simp)
      (forall_of_opcode fun _ hsize ↦ if_neg (Nat.not_lt.mpr hsize))
  | dnrm2 | dasum | idamax | idamin =>
    exact becomes_reduction (fun a _ ↦ [a]) (by simp) (forall_of_opcode fun _ _ ↦ rfl)

theorem request_of_not_supported (h : ¬ function.Supported args entry.pointerMode) :
    ∃ status, function.request args entry = .error status := by
  cases function with
  | sgemm | sgemmEx | gemmEx | dgemm | gemmStridedBatchedEx | dgemmStridedBatched
  | sgemmStridedBatched =>
    exact ⟨15, if_pos fun hmode ↦ h fun _ ↦ hmode⟩
  | cgemv | zgemv =>
    refine ⟨7, if_pos ?_⟩
    obtain ⟨hmode, hnull⟩ := Classical.not_imp.mp h
    exact ⟨hmode, by omega⟩
  | dotEx => exact ⟨15, if_pos (not_not.mp h)⟩
  | _ => exact absurd (fun hfamily ↦ nomatch hfamily) h

/-! ## What the library reads

A scalar reaches the library unchanged when its bytes were all copied or its pointer was passed on,
and two calls of a function are the same when it reads the same scalars. -/

theorem read_copy_eq_iff (scalar : ScalarArg) (size n : ℕ) :
    (ScalarSource.host (scalar.copy size)).read n = (ScalarSource.host scalar.bytes).read n ↔
      ∀ i < n, size ≤ i → scalar.bytes i = 0 := by
  simp only [ScalarSource.read, ScalarValue.value.injEq, List.map_inj_left, List.mem_range,
    ScalarArg.copy]
  refine forall₂_congr fun i _ ↦ ?_
  by_cases hi : i < size
  · simp [hi, Nat.not_le.mpr hi]
  · simp [hi, Nat.not_lt.mp hi, eq_comm]

theorem read_passed_eq_iff (scalar : ScalarArg) (size pointer n : ℕ) :
    (entry.passed scalar size pointer).read n = (scalar.source entry.pointerMode).read n ↔
      (entry.pointerMode = 0 → ∀ i < n, size ≤ i → scalar.bytes i = 0) ∧
        (entry.pointerMode ≠ 0 → pointer = scalar.pointer) := by
  by_cases hmode : entry.pointerMode = 0
  · simp only [HandleEntry.passed, ScalarArg.source, hmode, if_true, read_copy_eq_iff,
      forall_const, ne_eq, not_true, IsEmpty.forall_iff, and_true]
  · simp only [HandleEntry.passed, ScalarArg.source, hmode, if_false, ScalarSource.read,
      ScalarValue.device.injEq, IsEmpty.forall_iff, ne_eq, not_false_eq_true, forall_const,
      true_and]

theorem call_on_eq_iff {handle : LibraryHandle} {pointerMode : ℤ} {n : ℕ}
    {alpha alpha' beta beta' : ScalarSource} :
    (function.call args pointerMode alpha beta).on handle n =
        (function.call args pointerMode alpha' beta').on handle n ↔
      (function.family ∈ [.hostScalars, .twoScalars, .oneScalar] → alpha.read n = alpha'.read n) ∧
        (function.family ∈ [.hostScalars, .twoScalars] → beta.read n = beta'.read n) := by
  cases hfamily : function.family <;> simp [call, hfamily, LibraryCall.on]

/-- The server's call is the direct one just when the scalars are kept. -/
theorem received_on_eq_iff {lib : Cublas} {handle : LibraryHandle}
    (h : function.Supported args entry.pointerMode)
    (hmode : handle.pointerMode = entry.pointerMode) :
    (function.received args entry).on handle (function.scaleSize lib args) =
        (function.direct args handle.pointerMode).on handle (function.scaleSize lib args) ↔
      function.ScalarsKept lib args entry := by
  rw [hmode, received, direct, call_on_eq_iff, read_passed_eq_iff, read_passed_eq_iff]
  have hcopied (scalar : ScalarArg) (n : ℕ) : ∀ i < n, n ≤ i → scalar.bytes i = 0 :=
    fun i hi hn ↦ absurd hn (Nat.not_le.mpr hi)
  cases function with
  | gemmEx | gemmStridedBatchedEx =>
    -- The library decides how long the scalars are, and the client guesses.
    have hhost : entry.pointerMode = 0 := h rfl
    simp [ScalarsKept, family, scaleSize, copySize, hhost, forall_and]
  | cgemm | zgemm | dgemmBatched | zgemmStridedBatched | cgemmStridedBatched
  | sgemv | dgemv | cgemv | zgemv =>
    constructor
    · exact fun hread _ ↦ (hread.2 (by simp [family])).2
    · exact fun hkept ↦ ⟨fun _ ↦ ⟨fun _ ↦ hcopied _ _, fun _ ↦ rfl⟩,
        fun _ ↦ ⟨fun _ ↦ hcopied _ _, hkept rfl⟩⟩
  | sgemm | sgemmEx | dgemm | dgemmStridedBatched | sgemmStridedBatched =>
    have hhost : entry.pointerMode = 0 := h rfl
    exact iff_of_true ⟨fun _ ↦ ⟨fun _ ↦ hcopied _ _, fun _ ↦ rfl⟩,
      fun _ ↦ ⟨fun _ ↦ hcopied _ _, fun hne ↦ absurd hhost hne⟩⟩ fun hfamily ↦ nomatch hfamily
  | _ =>
    exact iff_of_true ⟨fun _ ↦ ⟨fun _ ↦ hcopied _ _, fun _ ↦ rfl⟩, fun hfamily ↦ by
      simp [family] at hfamily⟩ fun hfamily ↦ nomatch hfamily

end CublasFunction

/-! ## Setting what is marked

Marked parts are set one after the other up to the first that is refused, so what every setter of
the list leaves alone is left alone however far it is followed. -/

namespace Cublas

variable {lib : Cublas}

theorem setAll_status {handle : LibraryHandle} {setters : List CublasSetter} :
    (lib.setAll handle setters).2 = 0 ↔ ∀ setter ∈ setters, lib.status setter = 0 := by
  induction setters generalizing handle with
  | nil => simp [setAll]
  | cons setter rest ih =>
    rw [setAll, List.forall_mem_cons]
    by_cases h : lib.status setter = 0
    · rw [if_pos h, ih]
      exact (and_iff_right h).symm
    · rw [if_neg h]
      exact iff_of_false h fun hall ↦ h hall.1

theorem setAll_of_accepted {handle : LibraryHandle} {setters : List CublasSetter}
    (h : ∀ setter ∈ setters, lib.status setter = 0) :
    (lib.setAll handle setters).1 = setters.foldl LibraryHandle.set handle := by
  induction setters generalizing handle with
  | nil => rfl
  | cons setter rest ih =>
    rw [List.forall_mem_cons] at h
    rw [setAll, if_pos h.1]
    exact ih h.2

theorem setAll_invariant {I : LibraryHandle → Prop} {setters : List CublasSetter}
    (hset : ∀ setter ∈ setters, ∀ handle, I handle → I (handle.set setter))
    {handle : LibraryHandle} (h : I handle) : I (lib.setAll handle setters).1 := by
  induction setters generalizing handle with
  | nil => exact h
  | cons setter rest ih =>
    rw [List.forall_mem_cons] at hset
    rw [setAll]
    split_ifs
    · exact ih hset.2 (hset.1 handle h)
    · exact h

end Cublas

theorem HandleEntry.mem_setters {entry : HandleEntry} {setter : CublasSetter} :
    setter ∈ entry.setters ↔
      entry.dirtyState.getLsbD 0 ∧ setter = .stream entry.stream ∨
      entry.dirtyState.getLsbD 1 ∧ setter = .workspace entry.workspace entry.workspaceSize ∨
      entry.dirtyState.getLsbD 2 ∧ setter = .mathMode entry.mathMode ∨
      entry.dirtyState.getLsbD 3 ∧ setter = .pointerMode entry.pointerMode := by
  simp only [HandleEntry.setters, List.mem_append, List.mem_ite_nil_right, List.mem_singleton,
    or_assoc]

theorem HandleEntry.accepted_iff {lib : Cublas} {entry : HandleEntry} :
    entry.Accepted lib ↔ ∀ setter ∈ entry.setters, lib.status setter = 0 := by
  simp only [HandleEntry.mem_setters]
  constructor
  · rintro ⟨hstream, hworkspace, hmath, hpointer⟩ setter (h | h | h | h)
    · exact h.2 ▸ hstream h.1
    · exact h.2 ▸ hworkspace h.1
    · exact h.2 ▸ hmath h.1
    · exact h.2 ▸ hpointer h.1
  · exact fun h ↦
      ⟨fun hbit ↦ h _ (Or.inl ⟨hbit, rfl⟩), fun hbit ↦ h _ (Or.inr (Or.inl ⟨hbit, rfl⟩)),
        fun hbit ↦ h _ (Or.inr (Or.inr (Or.inl ⟨hbit, rfl⟩))),
        fun hbit ↦ h _ (Or.inr (Or.inr (Or.inr ⟨hbit, rfl⟩)))⟩

/-- The handle of the server once all that is marked is set. -/
def HandleEntry.appliedTo (entry : HandleEntry) (handle : LibraryHandle) : LibraryHandle where
  stream := if entry.dirtyState.getLsbD 0 then entry.stream else handle.stream
  workspace :=
    if entry.dirtyState.getLsbD 1 then some (entry.workspace, entry.workspaceSize)
    else if entry.dirtyState.getLsbD 0 then none
    else handle.workspace
  mathMode := if entry.dirtyState.getLsbD 2 then entry.mathMode else handle.mathMode
  pointerMode := if entry.dirtyState.getLsbD 3 then entry.pointerMode else handle.pointerMode

theorem HandleEntry.foldl_setters (entry : HandleEntry) (handle : LibraryHandle) :
    entry.setters.foldl LibraryHandle.set handle = entry.appliedTo handle := by
  unfold HandleEntry.setters HandleEntry.appliedTo
  split_ifs <;> rfl

/-- The second handle differs from the first only where something is marked. -/
structure HandleEntry.Leaves (entry : HandleEntry) (handle handle' : LibraryHandle) : Prop where
  stream : entry.dirtyState.getLsbD 0 = false → handle'.stream = handle.stream
  mathMode : entry.dirtyState.getLsbD 2 = false → handle'.mathMode = handle.mathMode
  pointerMode : entry.dirtyState.getLsbD 3 = false → handle'.pointerMode = handle.pointerMode
  workspace : entry.dirtyState.getLsbD 1 = false → entry.dirtyState.getLsbD 0 = false →
    handle'.workspace = handle.workspace

theorem HandleEntry.Leaves.refl (entry : HandleEntry) (handle : LibraryHandle) :
    entry.Leaves handle handle :=
  ⟨fun _ ↦ rfl, fun _ ↦ rfl, fun _ ↦ rfl, fun _ _ ↦ rfl⟩

theorem HandleEntry.leaves_setAll {lib : Cublas} (entry : HandleEntry) (handle : LibraryHandle) :
    entry.Leaves handle (lib.setAll handle entry.setters).1 := by
  refine Cublas.setAll_invariant (fun setter hsetter handle' hkept ↦ ?_) (.refl _ _)
  have hmarked {i : ℕ} (hbit : entry.dirtyState.getLsbD i = true) {P : Prop}
      (hclean : entry.dirtyState.getLsbD i = false) : P := by
    rw [hbit] at hclean
    exact nomatch hclean
  rcases mem_setters.mp hsetter with ⟨hbit, rfl⟩ | ⟨hbit, rfl⟩ | ⟨hbit, rfl⟩ | ⟨hbit, rfl⟩
  · exact ⟨hmarked hbit, hkept.mathMode, hkept.pointerMode, fun _ ↦ hmarked hbit⟩
  · exact ⟨hkept.stream, hkept.mathMode, hkept.pointerMode, hmarked hbit⟩
  · exact ⟨hkept.stream, hmarked hbit, hkept.pointerMode, hkept.workspace⟩
  · exact ⟨hkept.stream, hkept.mathMode, hmarked hbit, hkept.workspace⟩

namespace CublasState

variable {st : CublasState} {function : CublasFunction} {args : CublasArgs}

theorem compute_of_not_supported (lib : Cublas)
    (h : ¬ function.Supported args st.entry.pointerMode) :
    ∃ status, st.compute lib function args = (st.server, .refused status) := by
  obtain ⟨status, hrequest⟩ := CublasFunction.request_of_not_supported h
  exact ⟨status, by rw [compute, hrequest]⟩

variable {lib : Cublas}

theorem compute_of_refused (h : function.Supported args st.entry.pointerMode)
    (hrefused : ¬ st.entry.Accepted lib) :
    ∃ status, st.compute lib function args =
      ((lib.setAll st.server st.entry.setters).1, .refused status) := by
  obtain ⟨request, hrequest, -⟩ := CublasFunction.request_of_supported h
  have hstatus : (lib.setAll st.server st.entry.setters).2 ≠ 0 :=
    fun hzero ↦ hrefused (HandleEntry.accepted_iff.mpr (Cublas.setAll_status.mp hzero))
  refine ⟨(lib.setAll st.server st.entry.setters).2, ?_⟩
  rw [compute, hrequest]
  exact if_neg hstatus

theorem compute_of_accepted (h : function.Supported args st.entry.pointerMode)
    (haccepted : st.entry.Accepted lib) :
    st.compute lib function args =
      (st.entry.appliedTo st.server, .called ((function.received args st.entry).on
        (st.entry.appliedTo st.server) (function.scaleSize lib args))) := by
  obtain ⟨request, hrequest, hcall⟩ := CublasFunction.request_of_supported h
  have hall := HandleEntry.accepted_iff.mp haccepted
  have hhandle : (lib.setAll st.server st.entry.setters).1 = st.entry.appliedTo st.server :=
    (Cublas.setAll_of_accepted hall).trans (st.entry.foldl_setters st.server)
  rw [compute, hrequest]
  refine (if_pos (Cublas.setAll_status.mpr hall)).trans ?_
  rw [hcall, setters_remoteCallResponse, hhandle]

end CublasState

/-! ## The invariant

Once the marked parts are set, the server's handle is the forwarded one. The server's side matters
only while nothing is marked. -/

/-- One part of the state: when it is marked and the library accepts the entry's value, forwarding
has led to that value; when it is not marked, nobody has changed it. -/
structure Tracks {α : Type} [Zero α] (marked : Bool) (accepted : Prop)
    (entry server forwarded : α) : Prop where
  followed : marked = true → accepted → forwarded = entry
  clean : marked = false → entry = 0 ∧ server = 0 ∧ forwarded = 0

namespace Tracks

variable {α : Type} [Zero α] {marked : Bool} {accepted : Prop} {entry server forwarded : α}

theorem unchanged (accepted : Prop) : Tracks false accepted (0 : α) 0 0 :=
  ⟨(nomatch ·), fun _ ↦ ⟨rfl, rfl, rfl⟩⟩

theorem applied (h : Tracks marked accepted entry server forwarded)
    (haccepted : marked = true → accepted) : (if marked then entry else server) = forwarded := by
  cases marked with
  | true => exact (h.followed rfl (haccepted rfl)).symm
  | false => exact (h.clean rfl).2.1.trans (h.clean rfl).2.2.symm

theorem eq_entry (h : Tracks marked accepted entry server forwarded)
    (haccepted : marked = true → accepted) : forwarded = entry := by
  cases marked with
  | true => exact h.followed rfl (haccepted rfl)
  | false => exact (h.clean rfl).2.2.trans (h.clean rfl).1.symm

theorem of_server (h : Tracks marked accepted entry server forwarded) {server' : α}
    (hserver : marked = false → server' = server) :
    Tracks marked accepted entry server' forwarded :=
  ⟨h.followed, fun hclean ↦ hserver hclean ▸ h.clean hclean⟩

/-- A skipped setter is one that forwarding does not notice either. -/
theorem skip (h : Tracks marked accepted entry server forwarded) [Decidable accepted] :
    Tracks marked accepted entry server (if accepted then entry else forwarded) := by
  refine ⟨fun _ haccepted ↦ if_pos haccepted, fun hclean ↦ ?_⟩
  obtain ⟨hentry, hserver, hforwarded⟩ := h.clean hclean
  refine ⟨hentry, hserver, ?_⟩
  rw [hentry, hforwarded, ite_self]

/-- A setter that is not skipped marks its part. -/
theorem assign (accepted : Prop) [Decidable accepted] (entry server forwarded : α) :
    Tracks true accepted entry server (if accepted then entry else forwarded) :=
  ⟨fun _ haccepted ↦ if_pos haccepted, fun hclean ↦ nomatch hclean⟩

end Tracks

/-- The two handles agree once the marked parts are set, as far as the library accepts them. -/
structure CublasState.Agrees (lib : Cublas) (st : CublasState) : Prop where
  stream : Tracks (st.entry.dirtyState.getLsbD 0) (lib.status (.stream st.entry.stream) = 0)
    st.entry.stream st.server.stream st.forwarded.stream
  mathMode : Tracks (st.entry.dirtyState.getLsbD 2) (lib.status (.mathMode st.entry.mathMode) = 0)
    st.entry.mathMode st.server.mathMode st.forwarded.mathMode
  pointerMode : Tracks (st.entry.dirtyState.getLsbD 3)
    (lib.status (.pointerMode st.entry.pointerMode) = 0)
    st.entry.pointerMode st.server.pointerMode st.forwarded.pointerMode
  workspace : st.entry.dirtyState.getLsbD 1 = true →
    lib.status (.workspace st.entry.workspace st.entry.workspaceSize) = 0 →
    st.forwarded.workspace = some (st.entry.workspace, st.entry.workspaceSize)
  /-- Without a workspace of the program, both use the pool. -/
  pool : st.entry.dirtyState.getLsbD 1 = false →
    (st.entry.dirtyState.getLsbD 0 = true → lib.status (.stream st.entry.stream) = 0 →
      st.forwarded.workspace = none) ∧
    (st.entry.dirtyState.getLsbD 0 = false →
      st.server.workspace = none ∧ st.forwarded.workspace = none)

namespace CublasState.Agrees

variable {lib : Cublas} {st : CublasState}

theorem init : CublasState.Agrees lib {} where
  stream := .unchanged _
  mathMode := .unchanged _
  pointerMode := .unchanged _
  workspace h := nomatch h
  pool _ := ⟨(nomatch ·), fun _ ↦ ⟨rfl, rfl⟩⟩

/-- With all that is marked accepted, the handle a call is made on is the forwarded one. -/
theorem appliedTo_server (h : st.Agrees lib) (haccepted : st.entry.Accepted lib) :
    st.entry.appliedTo st.server = st.forwarded := by
  have hworkspace : (st.entry.appliedTo st.server).workspace = st.forwarded.workspace := by
    simp only [HandleEntry.appliedTo]
    split_ifs with hset hstream
    · exact (h.workspace hset (haccepted.workspace hset)).symm
    · exact ((h.pool (Bool.eq_false_iff.mpr hset)).1 hstream (haccepted.stream hstream)).symm
    · have hpool := (h.pool (Bool.eq_false_iff.mpr hset)).2 (Bool.eq_false_iff.mpr hstream)
      exact hpool.1.trans hpool.2.symm
  rcases hforwarded : st.forwarded with ⟨stream, workspace, mathMode, pointerMode⟩
  rw [LibraryHandle.mk.injEq]
  refine ⟨?_, ?_, ?_, ?_⟩
  · exact (h.stream.applied haccepted.stream).trans (congrArg _ hforwarded)
  · exact hworkspace.trans (congrArg _ hforwarded)
  · exact (h.mathMode.applied haccepted.mathMode).trans (congrArg _ hforwarded)
  · exact (h.pointerMode.applied haccepted.pointerMode).trans (congrArg _ hforwarded)

/-! ### One step

A computing call changes the server's handle only where something is marked, so the two still agree
behind it. -/

theorem set_stream (h : st.Agrees lib) {value : ℕ}
    (heffect : TakesEffect lib st (.set (.stream value))) :
    CublasState.Agrees lib
      { st with
        entry := st.entry.set (.stream value)
        forwarded := lib.forward st.forwarded (.stream value) } := by
  have hstream : (lib.forward st.forwarded (.stream value)).stream =
      if lib.status (.stream value) = 0 then value else st.forwarded.stream := by
    unfold Cublas.forward
    split_ifs <;> rfl
  have hmodes : (lib.forward st.forwarded (.stream value)).mathMode = st.forwarded.mathMode ∧
      (lib.forward st.forwarded (.stream value)).pointerMode = st.forwarded.pointerMode := by
    unfold Cublas.forward
    split_ifs <;> exact ⟨rfl, rfl⟩
  -- the stream is set already and there is no workspace: the client makes no call
  by_cases hskip : st.entry.stream = value ∧ st.entry.workspace = 0
  · rw [HandleEntry.set, if_pos hskip]
    obtain ⟨rfl, hnull⟩ := hskip
    refine ⟨hstream ▸ h.stream.skip, hmodes.1 ▸ h.mathMode, hmodes.2 ▸ h.pointerMode, ?_, ?_⟩
    -- setting the stream would have put back the workspace of the library, were one set
    · intro hset
      by_cases haccepted : lib.status (.stream st.entry.stream) = 0
      · exact absurd hset (Bool.eq_false_iff.mp (heffect haccepted rfl hnull))
      · rw [Cublas.forward, if_neg haccepted]
        exact h.workspace hset
    · intro hclean
      refine ⟨fun _ haccepted ↦ by rw [Cublas.forward, if_pos haccepted]; rfl, fun hfirst ↦ ?_⟩
      refine ⟨((h.pool hclean).2 hfirst).1, ?_⟩
      rw [Cublas.forward]
      split_ifs
      · rfl
      · exact ((h.pool hclean).2 hfirst).2
  · rw [HandleEntry.set, if_neg hskip]
    refine ⟨?_, ?_, ?_, ?_, ?_⟩
    · simpa [hstream] using Tracks.assign _ value st.server.stream st.forwarded.stream
    · simpa [hmodes.1] using h.mathMode
    · simpa [hmodes.2] using h.pointerMode
    · simp
    · refine fun _ ↦ ⟨fun _ haccepted ↦ ?_, fun hfirst ↦ by simp at hfirst⟩
      rw [Cublas.forward, if_pos haccepted]
      rfl

theorem set_workspace (h : st.Agrees lib) {pointer size : ℕ}
    (heffect : TakesEffect lib st (.set (.workspace pointer size))) :
    CublasState.Agrees lib
      { st with
        entry := st.entry.set (.workspace pointer size)
        forwarded := lib.forward st.forwarded (.workspace pointer size) } := by
  have hrest : (lib.forward st.forwarded (.workspace pointer size)).stream = st.forwarded.stream ∧
      (lib.forward st.forwarded (.workspace pointer size)).mathMode = st.forwarded.mathMode ∧
      (lib.forward st.forwarded (.workspace pointer size)).pointerMode =
        st.forwarded.pointerMode := by
    unfold Cublas.forward
    split_ifs <;> exact ⟨rfl, rfl, rfl⟩
  by_cases hskip : st.entry.workspace = pointer ∧ st.entry.workspaceSize = size
  · rw [HandleEntry.set, if_pos hskip]
    obtain ⟨rfl, rfl⟩ := hskip
    refine ⟨hrest.1 ▸ h.stream, hrest.2.1 ▸ h.mathMode, hrest.2.2 ▸ h.pointerMode, ?_, ?_⟩
    · intro _ haccepted
      rw [Cublas.forward, if_pos haccepted]
      rfl
    · intro hclean
      have hrefused :
          lib.status (.workspace st.entry.workspace st.entry.workspaceSize) ≠ 0 :=
        fun haccepted ↦ Bool.eq_false_iff.mp hclean (heffect haccepted rfl rfl)
      rw [Cublas.forward, if_neg hrefused]
      exact h.pool hclean
  · rw [HandleEntry.set, if_neg hskip]
    refine ⟨?_, ?_, ?_, ?_, ?_⟩
    · simpa [hrest.1] using h.stream
    · simpa [hrest.2.1] using h.mathMode
    · simpa [hrest.2.2] using h.pointerMode
    · intro _ haccepted
      rw [Cublas.forward, if_pos haccepted]
      rfl
    · intro hclean
      simp at hclean

theorem set_mathMode (h : st.Agrees lib) (value : ℤ) :
    CublasState.Agrees lib
      { st with
        entry := st.entry.set (.mathMode value)
        forwarded := lib.forward st.forwarded (.mathMode value) } := by
  have hforward : lib.forward st.forwarded (.mathMode value) =
      { st.forwarded with
        mathMode := if lib.status (.mathMode value) = 0 then value
          else st.forwarded.mathMode } := by
    unfold Cublas.forward
    split_ifs <;> rfl
  by_cases hskip : st.entry.mathMode = value
  · rw [hforward, HandleEntry.set, if_pos hskip]
    subst hskip
    exact ⟨h.stream, h.mathMode.skip, h.pointerMode, h.workspace, h.pool⟩
  · rw [hforward, HandleEntry.set, if_neg hskip]
    refine ⟨?_, ?_, ?_, ?_, ?_⟩
    · simpa using h.stream
    · simpa using Tracks.assign _ value st.server.mathMode st.forwarded.mathMode
    · simpa using h.pointerMode
    · simpa using h.workspace
    · simpa using h.pool

theorem set_pointerMode (h : st.Agrees lib) (value : ℤ) :
    CublasState.Agrees lib
      { st with
        entry := st.entry.set (.pointerMode value)
        forwarded := lib.forward st.forwarded (.pointerMode value) } := by
  have hforward : lib.forward st.forwarded (.pointerMode value) =
      { st.forwarded with
        pointerMode := if lib.status (.pointerMode value) = 0 then value
          else st.forwarded.pointerMode } := by
    unfold Cublas.forward
    split_ifs <;> rfl
  by_cases hskip : st.entry.pointerMode = value
  · rw [hforward, HandleEntry.set, if_pos hskip]
    subst hskip
    exact ⟨h.stream, h.mathMode, h.pointerMode.skip, h.workspace, h.pool⟩
  · rw [hforward, HandleEntry.set, if_neg hskip]
    refine ⟨?_, ?_, ?_, ?_, ?_⟩
    · simpa using h.stream
    · simpa using h.mathMode
    · simpa using Tracks.assign _ value st.server.pointerMode st.forwarded.pointerMode
    · simpa using h.workspace
    · simpa using h.pool

theorem compute (h : st.Agrees lib) (function : CublasFunction) (args : CublasArgs) :
    CublasState.Agrees lib { st with server := (st.compute lib function args).1 } := by
  have hserver : (st.compute lib function args).1 = st.server ∨
      (st.compute lib function args).1 = (lib.setAll st.server st.entry.setters).1 := by
    by_cases hsupported : function.Supported args st.entry.pointerMode
    · right
      by_cases haccepted : st.entry.Accepted lib
      · rw [compute_of_accepted hsupported haccepted, Cublas.setAll_of_accepted
          (HandleEntry.accepted_iff.mp haccepted), st.entry.foldl_setters]
      · obtain ⟨status, hcompute⟩ := compute_of_refused hsupported haccepted
        rw [hcompute]
    · obtain ⟨status, hcompute⟩ := compute_of_not_supported lib hsupported
      exact Or.inl (congrArg Prod.fst hcompute)
  have hframe : st.entry.Leaves st.server (st.compute lib function args).1 := by
    rcases hserver with hserver | hserver
    · rw [hserver]
      exact .refl _ _
    · rw [hserver]
      exact st.entry.leaves_setAll st.server
  refine ⟨h.stream.of_server hframe.stream, h.mathMode.of_server hframe.mathMode,
    h.pointerMode.of_server hframe.pointerMode, h.workspace,
    fun hclean ↦ ⟨(h.pool hclean).1, fun hfirst ↦ ?_⟩⟩
  have hpool := (h.pool hclean).2 hfirst
  exact ⟨(hframe.workspace hclean hfirst).trans hpool.1, hpool.2⟩

theorem step {st' : CublasState} {action : CublasAction} (h : st.Agrees lib)
    (hstep : ((cublasHandle lib).restrict (TakesEffect lib)).step st action = some st') :
    st'.Agrees lib := by
  obtain ⟨heffect, hstep⟩ := Machine.step_restrict.mp hstep
  rcases action with (value | ⟨pointer, size⟩ | value | value) | ⟨function, args⟩
  · exact Option.some.inj hstep ▸ h.set_stream heffect
  · exact Option.some.inj hstep ▸ h.set_workspace heffect
  · exact Option.some.inj hstep ▸ h.set_mathMode value
  · exact Option.some.inj hstep ▸ h.set_pointerMode value
  · exact Option.some.inj hstep ▸ h.compute function args

end CublasState.Agrees

/-! ## The calls of a program -/

/-- **Calls on a remote handle.** Whatever was set and computed before, a call is made when it is
supported and everything marked is accepted, and it is then the call that forwarding would have
made, on the same state and with the same operands, exactly if its scalars are kept. -/
theorem cublasCalls_match_forwarding (lib : Cublas) {actions : List CublasAction}
    {st : CublasState}
    (hrun : ((cublasHandle lib).restrict (TakesEffect lib)).run {} actions = some st)
    (function : CublasFunction) (args : CublasArgs) :
    ((∃ call, (st.compute lib function args).2 = .called call) ↔
      function.Supported args st.entry.pointerMode ∧ st.entry.Accepted lib) ∧
    ∀ call, (st.compute lib function args).2 = .called call →
      (call = st.directCall lib function args ↔ function.ScalarsKept lib args st.entry) := by
  have hagrees : st.Agrees lib := Machine.run_invariant _ (fun _ _ _ ↦ .step) .init hrun
  by_cases hsupported : function.Supported args st.entry.pointerMode
  · by_cases haccepted : st.entry.Accepted lib
    · have hserver := hagrees.appliedTo_server haccepted
      have hcompute := CublasState.compute_of_accepted hsupported haccepted
      have hmode : st.forwarded.pointerMode = st.entry.pointerMode :=
        hagrees.pointerMode.eq_entry haccepted.pointerMode
      rw [hcompute, hserver]
      refine ⟨iff_of_true ⟨_, rfl⟩ ⟨hsupported, haccepted⟩, ?_⟩
      rintro call ⟨⟩
      exact CublasFunction.received_on_eq_iff hsupported hmode
    · obtain ⟨status, hcompute⟩ := CublasState.compute_of_refused hsupported haccepted
      rw [hcompute]
      exact ⟨iff_of_false (fun ⟨_, h⟩ ↦ nomatch h) fun h ↦ haccepted h.2, fun _ h ↦ nomatch h⟩
  · obtain ⟨status, hcompute⟩ := CublasState.compute_of_not_supported lib hsupported
    rw [hcompute]
    exact ⟨iff_of_false (fun ⟨_, h⟩ ↦ nomatch h) fun h ↦ hsupported h.1, fun _ h ↦ nomatch h⟩

/-- A library that takes a workspace at a multiple of 256 bytes, and knows the modes by number. -/
def sampleCublas : Cublas where
  status
    | .stream _ => 0
    | .workspace pointer _ => if pointer % 256 = 0 then 0 else 7
    | .mathMode value => if value ∈ [0, 1, 2, 3] then 0 else 7
    | .pointerMode value => if value ∈ [0, 1] then 0 else 7
  scaleSize types :=
    let part := if types.computeType ∈ [64, 65] then 2 else if types.computeType ∈ [70, 71] then 8
      else 4
    if types.cType ∈ [4, 5] then 2 * part else part

/-- A matrix, two vectors, and scalars that the device holds at 4096 and 8192. -/
def sampleArgs : CublasArgs where
  shape := { m := 4, n := 4, lda := 4, ldb := 1, ldc := 1 }
  types := { aType := 4, bType := 4, cType := 4, computeType := 68 }
  a := 65536
  b := 131072
  c := 196608
  alpha := ⟨4096, fun i ↦ if i < 8 then 1 else 0⟩
  beta := ⟨8192, fun i ↦ if i < 8 then 2 else 0⟩

/-- A workspace is set and used, and dropped by setting the stream again. -/
def sampleActions : List CublasAction :=
  [.set (.stream 5), .set (.workspace 16384 1024), .compute .dscal sampleArgs, .set (.stream 5),
    .set (.mathMode 1)]

theorem cublasCalls_match_forwarding_dgemv :
    ∃ st, ((cublasHandle sampleCublas).restrict (TakesEffect sampleCublas)).run {} sampleActions =
        some st ∧
      (st.compute sampleCublas .dgemv sampleArgs).2 =
        .called (st.directCall sampleCublas .dgemv sampleArgs) := by
  let st : CublasState :=
    { entry := { stream := 5, mathMode := 1, dirtyState := 5 }
      server := { stream := 5, workspace := some (16384, 1024) }
      forwarded := { stream := 5, mathMode := 1 } }
  have hrun : ((cublasHandle sampleCublas).restrict (TakesEffect sampleCublas)).run {}
      sampleActions = some st := rfl
  refine ⟨st, hrun, ?_⟩
  obtain ⟨hcalled, hdirect⟩ := cublasCalls_match_forwarding sampleCublas hrun .dgemv sampleArgs
  obtain ⟨call, hcall⟩ := hcalled.mpr
    ⟨(nomatch ·), fun _ ↦ rfl, fun _ ↦ rfl, fun _ ↦ rfl, fun _ ↦ rfl⟩
  rw [hcall, (hdirect call hcall).mpr fun _ hdevice ↦ absurd rfl hdevice]

/-- In device pointer mode the second scalar's pointer is replaced by the handle's workspace, and a
complex product loses the imaginary part of its scalars. -/
theorem scalars_replaced :
    (∃ st call, (cublasHandle sampleCublas).run {} [.set (.pointerMode 1)] = some st ∧
      (st.compute sampleCublas .cgemv sampleArgs).2 = .called call ∧
      call.beta = some (.device 0) ∧
      (st.directCall sampleCublas .cgemv sampleArgs).beta = some (.device 8192)) ∧
    ∃ call, (CublasState.compute sampleCublas {} .gemmEx sampleArgs).2 = .called call ∧
      call.alpha = some (.value [1, 1, 1, 1, 0, 0, 0, 0]) ∧
      (CublasState.directCall sampleCublas {} .gemmEx sampleArgs).alpha =
        some (.value [1, 1, 1, 1, 1, 1, 1, 1]) := by
  constructor
  · exact ⟨_, _, rfl, rfl, rfl, rfl⟩
  · exact ⟨_, rfl, rfl, rfl⟩

end Lupine
