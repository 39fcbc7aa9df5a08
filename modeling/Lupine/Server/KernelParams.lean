import Lupine.Cuda
import Lupine.Transport.Framing

/-!
# Kernel parameters on the wire

A request that carries kernel parameters has a header, which ends with the number of parameters and
the size of the payload, and then the payload. Before the handler gives the stream back it asks the
driver for the layout of the function. When the layout cannot be had or does not fit the header,
the payload cannot be taken apart; it still has to be taken off the stream.

The launch handlers drain it. The graph handlers share a reader that returns early and leave the
payload where it is, so that the next request starts inside it.

## One statement for all handlers

A handler reads its own header, and behind it one of two readers goes on. Each handler has a lemma
that says so, with the header as it is on the wire, and the two readers have a lemma about the
payload. What is said of a request then depends on the kind of its handler only.
-/

namespace Lupine

open Foundation

/-! ## Headers

Fields of a fixed width are written one after the other and read by as many calls of `rpc_read`. -/

structure Field where
  width : ℕ
  value : ℕ
  deriving DecidableEq, Repr

/-- A field that can be written, and read by one `rpc_read`. -/
def Field.Fits (f : Field) : Prop := f.width < 2 ^ 31 ∧ f.value < 256 ^ f.width

def encodeFields (fields : List Field) : List UInt8 :=
  fields.flatMap fun f ↦ leBytes f.width f.value

/-- Fields read one after the other by `rpc_read`. -/
def readFields : List ℕ → List UInt8 → Option (List ℕ × List UInt8)
  | [], input => some ([], input)
  | width :: widths, input => do
    let r ← unlessNegative (rpcRead input width)
    let (values, rest) ← readFields widths r.rest
    some (leValue r.data :: values, rest)

theorem encodeFields_append (fields fields' : List Field) :
    encodeFields (fields ++ fields') = encodeFields fields ++ encodeFields fields' :=
  List.flatMap_append

theorem readFields_encode {fields : List Field} (h : ∀ f ∈ fields, f.Fits) (rest : List UInt8) :
    readFields (fields.map Field.width) (encodeFields fields ++ rest)
      = some (fields.map Field.value, rest) := by
  induction fields with
  | nil => rfl
  | cons f fields ih =>
    obtain ⟨hwidth, hvalue⟩ := h f List.mem_cons_self
    have hread :=
      unlessNegative_rpcRead_leBytes f.width f.value (encodeFields fields ++ rest) hwidth
    have hrest := ih fun f' hf' ↦ h f' (List.mem_cons_of_mem f hf')
    rw [encodeFields, List.flatMap_cons, List.append_assoc, List.map_cons, readFields]
    rw [encodeFields] at hread hrest
    rw [hread, Option.bind_eq_bind, Option.bind_some, hrest, List.map_cons, leValue_leBytes hvalue]
    rfl

/-! ## Layouts

The offsets of a layout come from the driver. The sizes are summed up in a 64-bit word, which the
parameter space of a kernel does not fill. -/

abbrev CUfunction := Nat

/-- `CUDA_ERROR_INVALID_HANDLE`. -/
def errorInvalidHandle : CUresult := .error 400

/-- One answer of `cuFuncGetParamInfo` or `cuKernelGetParamInfo`. -/
structure ParamInfo where
  result : CUresult
  offset : ℕ
  size : ℕ
  deriving DecidableEq, Repr

/-- The answers for the parameters 0, 1, … of a function; `CUDA_ERROR_INVALID_VALUE` past the end.
The parameter space of a kernel is a few thousand bytes. -/
structure ParamAnswers where
  answers : List ParamInfo
  small : (answers.map ParamInfo.size).sum < 2 ^ 31

/-- `lupine_kernel_param_layout`: an offset and a size for each parameter. -/
abbrev ParamLayout := List (ℕ × ℕ)

/-- The loop of `lupine_get_kernel_param_layout` from parameter `i` on. -/
def paramLayoutLoop : ℕ → List ParamInfo → CUresult × ParamLayout
  | _, [] => (.success, [])
  | i, info :: infos =>
    if info.result = .errorInvalidValue then (.success, [])
    else if info.result ≠ .success then (if i = 0 then info.result else .success, [])
    else
      let tail := paramLayoutLoop (i + 1) infos
      (tail.1, (info.offset, info.size) :: tail.2)

/-- `lupine_get_kernel_param_layout`: a handle that is no function is asked about as a kernel. -/
def getKernelParamLayout (func kernel : ParamAnswers) : CUresult × ParamLayout :=
  match func.answers with
  | [] => (.success, [])
  | info :: _ =>
    if info.result = errorInvalidHandle then paramLayoutLoop 0 kernel.answers
    else paramLayoutLoop 0 func.answers

/-- The bytes of the parameters, summed up in a 64-bit word. -/
def expectedPayloadSize (layout : ParamLayout) : ℕ := (layout.map Prod.snd).sum % 2 ^ 64

/-- The buffer that holds the parameters at their offsets. -/
def storageSize (layout : ParamLayout) : ℕ :=
  layout.foldl (fun size p ↦ max size ((p.1 + p.2) % 2 ^ 64)) 0

/-! ## Readers

The values are read one by one off a payload of the size that the header gives. -/

/-- The loop of `rpc_read_kernel_param_values`: the values, each with its offset. -/
def readParamValues (storage : ℕ) :
    ParamLayout → List UInt8 → Option (List (ℕ × List UInt8) × List UInt8)
  | [], input => some ([], input)
  | (offset, size) :: layout, input =>
    if storage < (offset + size) % 2 ^ 64 then none
    else if size = 0 then do
      let (values, rest) ← readParamValues storage layout input
      some ((offset, []) :: values, rest)
    else do
      let r ← unlessNegative (rpcRead input size)
      let (values, rest) ← readParamValues storage layout r.rest
      some ((offset, r.data) :: values, rest)

/-- `rpc_read_kernel_param_values`; nothing is read when the sizes do not agree. -/
def rpcReadKernelParamValues (layout : ParamLayout) (payloadSize storage : ℕ)
    (input : List UInt8) : Option (List (ℕ × List UInt8) × List UInt8) :=
  if payloadSize ≠ expectedPayloadSize layout then none else readParamValues storage layout input

structure KernelDriver where
  cuCtxGetCurrent : CUresult × CUcontext
  cuCtxSetCurrent : CUcontext → CUresult
  cuFuncGetParamInfo : CUfunction → ParamAnswers
  cuKernelGetParamInfo : CUfunction → ParamAnswers
  /-- `lupine_ensure_dynamic_shared_attribute`, by function. -/
  ensureDynamicSharedAttribute : CUfunction → CUresult
  /-- The launch itself, or the graph call. -/
  call : CUresult

/-- What a handler has in hand once the stream is given back: the result it goes on with, and the
bytes still inbound. -/
structure Handled where
  result : CUresult
  inbound : List UInt8
  deriving DecidableEq, Repr

def Handled.andThen (handled : Handled) (next : CUresult) : Handled :=
  { handled with result := if handled.result = .success then next else handled.result }

variable (cuda : KernelDriver)

def KernelDriver.layout (f : CUfunction) : CUresult × ParamLayout :=
  getKernelParamLayout (cuda.cuFuncGetParamInfo f) (cuda.cuKernelGetParamInfo f)

/-- How a launch handler makes the context current, if one was sent. -/
def KernelDriver.enter (ctx : CUcontext) : CUresult :=
  if ctx ≠ 0 then
    if cuda.cuCtxGetCurrent.1 = .success ∧ cuda.cuCtxGetCurrent.2 ≠ ctx then
      cuda.cuCtxSetCurrent ctx
    else cuda.cuCtxGetCurrent.1
  else .success

/-- How a launch handler takes the parameters, entered with the result for the context; `none` is
the return of `-1`. -/
def readLaunchParams (entered : CUresult) (f : CUfunction) (paramCount payloadSize : ℕ)
    (input : List UInt8) : Option Handled :=
  let (result, layout) := if entered = .success then cuda.layout f else (entered, [])
  let result :=
    if result = .success ∧ layout.length ≠ paramCount then .errorInvalidValue else result
  if result = .success then
    (rpcReadKernelParamValues layout payloadSize (storageSize layout) input).map fun r ↦
      { result := result, inbound := r.2 }
  else (rpcDrain input payloadSize).map fun rest ↦ { result := result, inbound := rest }

/-- `lupine_read_kernel_param_values`, the reader of the graph handlers. -/
def readGraphParams (f : CUfunction) (paramCount payloadSize : ℕ) (input : List UInt8) : Handled :=
  let (result, layout) := cuda.layout f
  if result ≠ .success then { result := result, inbound := input }
  else if layout.length ≠ paramCount then { result := .errorInvalidValue, inbound := input }
  else if payloadSize ≠ expectedPayloadSize layout then
    { result := .errorInvalidValue, inbound := input }
  else
    match rpcReadKernelParamValues layout payloadSize (storageSize layout) input with
    -- the stream has ended: what was read of the parameters is gone with it
    | none => { result := .errorDeviceUnavailable, inbound := [] }
    | some r => { result := .success, inbound := r.2 }

/-! ## Handlers

Each of them up to `rpc_read_end`, and then the result of the call it makes. -/

/-- The dimensions of a launch, and its dynamic shared memory. -/
structure LaunchDims where
  gridDimX : ℕ
  gridDimY : ℕ
  gridDimZ : ℕ
  blockDimX : ℕ
  blockDimY : ℕ
  blockDimZ : ℕ
  sharedMemBytes : ℕ
  deriving DecidableEq, Repr

def LaunchDims.fields (d : LaunchDims) : List Field :=
  [⟨4, d.gridDimX⟩, ⟨4, d.gridDimY⟩, ⟨4, d.gridDimZ⟩, ⟨4, d.blockDimX⟩, ⟨4, d.blockDimY⟩,
    ⟨4, d.blockDimZ⟩, ⟨4, d.sharedMemBytes⟩]

/-- What stands in front of the payload of `cuLaunchKernel`. -/
def launchKernelHeader (f : CUfunction) (ctx : CUcontext) (dims : LaunchDims) (stream : CUstream)
    (paramCount payloadSize : ℕ) : List Field :=
  [⟨8, f⟩, ⟨8, ctx⟩] ++ dims.fields ++ [⟨8, stream⟩, ⟨4, paramCount⟩, ⟨8, payloadSize⟩]

/-- `handle_manual_cuLaunchKernel`. -/
def handleManualCuLaunchKernel (input : List UInt8) : Option Handled := do
  let (header, input) ← readFields [8, 8, 4, 4, 4, 4, 4, 4, 4, 8, 4, 8] input
  match header with
  | [f, ctx, _, _, _, _, _, _, _, _, paramCount, payloadSize] =>
    let handled ← readLaunchParams cuda (cuda.enter ctx) f paramCount payloadSize input
    some ((handled.andThen (cuda.ensureDynamicSharedAttribute f)).andThen cuda.call)
  | _ => none

/-- `CUlaunchConfig`, with its attributes as one block of 72 bytes each. -/
structure LaunchConfig where
  dims : LaunchDims
  padding : ℕ
  stream : CUstream
  attrs : HostPtr
  numAttrs : ℕ
  padding' : ℕ
  attributes : ℕ
  deriving DecidableEq, Repr

def LaunchConfig.fields (c : LaunchConfig) : List Field :=
  c.dims.fields ++ [⟨4, c.padding⟩, ⟨8, c.stream⟩, ⟨8, c.attrs⟩, ⟨4, c.numAttrs⟩, ⟨4, c.padding'⟩]

/-- The attributes follow the configuration if there are any. -/
def LaunchConfig.attributeFields (c : LaunchConfig) : List Field :=
  if c.numAttrs = 0 ∨ c.attrs = 0 then [] else [⟨72 * c.numAttrs, c.attributes⟩]

/-- `rpc_read_launch_config`; nothing later looks at what it read. -/
def rpcReadLaunchConfig (input : List UInt8) : Option (List UInt8) := do
  let (config, input) ← readFields [4, 4, 4, 4, 4, 4, 4, 4, 8, 8, 4, 4] input
  match config with
  | [_, _, _, _, _, _, _, _, _, attrs, numAttrs, _] =>
    if numAttrs = 0 ∨ attrs = 0 then some input
    else (readFields [72 * numAttrs] input).map Prod.snd
  | _ => none

/-- What stands in front of the payload of `cuLaunchKernelEx`; a packed launch has the size of its
payload only. -/
def launchKernelExHeader (config : LaunchConfig) (f : CUfunction) (ctx : CUcontext)
    (paramCount : Option ℕ) (payloadSize : ℕ) : List Field :=
  config.fields ++ (config.attributeFields ++
    match paramCount with
    | none => [⟨8, f⟩, ⟨8, ctx⟩, ⟨1, 1⟩] ++ [⟨8, payloadSize⟩]
    | some count => [⟨8, f⟩, ⟨8, ctx⟩, ⟨1, 0⟩] ++ [⟨4, count⟩, ⟨8, payloadSize⟩])

def readPackedLaunch (ctx : CUcontext) (input : List UInt8) : Option Handled := do
  let (sizes, input) ← readFields [8] input
  match sizes with
  | [packedSize] =>
    if 2 ^ 30 < packedSize then none
    else (unlessNegative (rpcRead input packedSize)).map fun r ↦
      { result := cuda.enter ctx, inbound := r.rest }
  | _ => none

def readSizedLaunch (f : CUfunction) (ctx : CUcontext) (input : List UInt8) : Option Handled := do
  let (sizes, input) ← readFields [4, 8] input
  match sizes with
  | [paramCount, payloadSize] =>
    readLaunchParams cuda (cuda.enter ctx) f paramCount payloadSize input
  | _ => none

/-- `handle_manual_cuLaunchKernelEx`. -/
def handleManualCuLaunchKernelEx (input : List UInt8) : Option Handled := do
  let input ← rpcReadLaunchConfig input
  let (launch, input) ← readFields [8, 8, 1] input
  match launch with
  | [f, ctx, packed] =>
    (if packed ≠ 0 then readPackedLaunch cuda ctx input
      else readSizedLaunch cuda f ctx input).map fun handled ↦
        (handled.andThen (cuda.ensureDynamicSharedAttribute f)).andThen cuda.call
  | _ => none

/-- What stands in front of the payload of `cuLaunchCooperativeKernel`. -/
def launchCooperativeKernelHeader (f : CUfunction) (dims : LaunchDims) (stream : CUstream)
    (paramCount payloadSize : ℕ) : List Field :=
  [⟨8, f⟩] ++ dims.fields ++ [⟨8, stream⟩, ⟨4, paramCount⟩, ⟨8, payloadSize⟩]

/-- `handle_manual_cuLaunchCooperativeKernel`, which stays in the context it is in. -/
def handleManualCuLaunchCooperativeKernel (input : List UInt8) : Option Handled := do
  let (header, input) ← readFields [8, 4, 4, 4, 4, 4, 4, 4, 8, 4, 8] input
  match header with
  | [f, _, _, _, _, _, _, _, _, paramCount, payloadSize] =>
    let handled ← readLaunchParams cuda .success f paramCount payloadSize input
    some (handled.andThen cuda.call)
  | _ => none

/-- `CUDA_KERNEL_NODE_PARAMS` on the wire. -/
structure KernelNodeParams where
  func : CUfunction
  dims : LaunchDims
  reserved : ℕ
  kern : CUfunction
  ctx : CUcontext
  deriving DecidableEq, Repr

def KernelNodeParams.fields (p : KernelNodeParams) : List Field :=
  [⟨8, p.func⟩] ++ p.dims.fields ++ [⟨4, p.reserved⟩, ⟨8, p.kern⟩, ⟨8, p.ctx⟩]

/-- `lupine_kernel_node_function`. -/
def kernelNodeFunction (func kern : CUfunction) : CUfunction := if func = 0 then kern else func

/-- What ends the header of a graph request: the node and what is said about its parameters. -/
def graphParamsHeader (node : KernelNodeParams) (paramCount payloadSize : ℕ) : List Field :=
  node.fields ++ [⟨4, paramCount⟩, ⟨8, payloadSize⟩]

/-- `rpc_read_kernel_node_params`, the two sizes, and the parameters. -/
def handleGraphParams (input : List UInt8) : Option Handled := do
  let (header, input) ← readFields [8, 4, 4, 4, 4, 4, 4, 4, 4, 8, 8, 4, 8] input
  match header with
  | [func, _, _, _, _, _, _, _, _, kern, _, paramCount, payloadSize] =>
    let handled := readGraphParams cuda (kernelNodeFunction func kern) paramCount payloadSize input
    some (handled.andThen cuda.call)
  | _ => none

/-- `lupine_read_graph_dependencies`; the nodes are one block of eight bytes each. -/
def readGraphDependencies (input : List UInt8) : Option (List UInt8) := do
  let (count, input) ← readFields [8] input
  match count with
  | [count] => if count = 0 then some input else (readFields [8 * count] input).map Prod.snd
  | _ => none

def dependencyFields (count deps : ℕ) : List Field :=
  if count = 0 then [⟨8, count⟩] else [⟨8, count⟩, ⟨8 * count, deps⟩]

/-- `handle_manual_cuGraphAddKernelNode`. -/
def handleManualCuGraphAddKernelNode (input : List UInt8) : Option Handled := do
  let (_, input) ← readFields [8] input
  let input ← readGraphDependencies input
  handleGraphParams cuda input

/-- `handle_manual_cuGraphKernelNodeSetParams`. -/
def handleManualCuGraphKernelNodeSetParams (input : List UInt8) : Option Handled := do
  let (_, input) ← readFields [8] input
  handleGraphParams cuda input

/-- `handle_manual_cuGraphExecKernelNodeSetParams`. -/
def handleManualCuGraphExecKernelNodeSetParams (input : List UInt8) : Option Handled := do
  let (_, input) ← readFields [8, 8] input
  handleGraphParams cuda input

/-! ## What the readers take

A layout agrees with the header when it has as many parameters and as many bytes. Parameters that
fill the payload are then read off it exactly. The launch reader drains what it cannot take
apart. -/

theorem paramLayoutLoop_sum_le (i : ℕ) (infos : List ParamInfo) :
    ((paramLayoutLoop i infos).2.map Prod.snd).sum ≤ (infos.map ParamInfo.size).sum := by
  induction infos generalizing i with
  | nil => exact le_rfl
  | cons info infos ih =>
    rw [paramLayoutLoop]
    split_ifs
    · exact Nat.zero_le _
    · exact Nat.zero_le _
    · exact Nat.zero_le _
    · simp only [List.map_cons, List.sum_cons]
      have htail := ih (i + 1)
      omega

theorem layout_small (f : CUfunction) : ((cuda.layout f).2.map Prod.snd).sum < 2 ^ 31 := by
  have hfunc := (cuda.cuFuncGetParamInfo f).small
  have hkernel := (cuda.cuKernelGetParamInfo f).small
  rw [KernelDriver.layout, getKernelParamLayout]
  split
  · decide
  · split_ifs
    · exact (paramLayoutLoop_sum_le 0 _).trans_lt hkernel
    · exact (paramLayoutLoop_sum_le 0 _).trans_lt hfunc

theorem expectedPayloadSize_layout (f : CUfunction) :
    expectedPayloadSize (cuda.layout f).2 = ((cuda.layout f).2.map Prod.snd).sum :=
  Nat.mod_eq_of_lt ((layout_small cuda f).trans (by decide))

private theorem le_foldl_max (layout : ParamLayout) (size : ℕ) :
    size ≤ layout.foldl (fun size p ↦ max size ((p.1 + p.2) % 2 ^ 64)) size ∧
      ∀ p ∈ layout, (p.1 + p.2) % 2 ^ 64
        ≤ layout.foldl (fun size p ↦ max size ((p.1 + p.2) % 2 ^ 64)) size := by
  induction layout generalizing size with
  | nil => exact ⟨le_rfl, fun p hp ↦ absurd hp List.not_mem_nil⟩
  | cons q layout ih =>
    obtain ⟨hsize, hall⟩ := ih (max size ((q.1 + q.2) % 2 ^ 64))
    refine ⟨(Nat.le_max_left _ _).trans hsize, ?_⟩
    intro p hp
    rcases List.mem_cons.mp hp with rfl | hp
    · exact (Nat.le_max_right _ _).trans hsize
    · exact hall p hp

theorem readParamValues_append {storage : ℕ} {layout : ParamLayout} {payload : List UInt8}
    (rest : List UInt8) (hstorage : ∀ p ∈ layout, (p.1 + p.2) % 2 ^ 64 ≤ storage)
    (hsmall : (layout.map Prod.snd).sum < 2 ^ 31)
    (hlength : payload.length = (layout.map Prod.snd).sum) :
    ∃ values, readParamValues storage layout (payload ++ rest) = some (values, rest) := by
  induction layout generalizing payload with
  | nil =>
    rw [List.length_eq_zero_iff.mp hlength]
    exact ⟨[], rfl⟩
  | cons p layout ih =>
    obtain ⟨offset, size⟩ := p
    rw [List.map_cons, List.sum_cons] at hsmall hlength
    have hfits := hstorage _ List.mem_cons_self
    have hstorage' := fun p hp ↦ hstorage p (List.mem_cons_of_mem _ hp)
    have htake : (payload.take size).length = size := by
      rw [List.length_take]
      omega
    have hdrop : (payload.drop size).length = (layout.map Prod.snd).sum := by
      rw [List.length_drop]
      omega
    obtain ⟨values, hvalues⟩ := ih hstorage' (by omega) hdrop
    rw [readParamValues, if_neg (Nat.not_lt.mpr hfits)]
    by_cases hzero : size = 0
    · rw [hzero, List.drop_zero] at hvalues
      rw [if_pos hzero]
      exact ⟨_, by rw [hvalues]; rfl⟩
    · have hread := unlessNegative_rpcRead_append (payload.drop size ++ rest)
        (show (payload.take size).length < 2 ^ 31 by omega)
      rw [htake, ← List.append_assoc, List.take_append_drop] at hread
      rw [if_neg hzero, hread]
      exact ⟨_, by rw [Option.bind_eq_bind, Option.bind_some, hvalues]; rfl⟩

/-- A layout agrees with what the header says. -/
def LayoutAgrees (f : CUfunction) (paramCount payloadSize : ℕ) : Prop :=
  (cuda.layout f).1 = .success ∧ (cuda.layout f).2.length = paramCount ∧
    payloadSize = expectedPayloadSize (cuda.layout f).2

instance (f : CUfunction) (paramCount payloadSize : ℕ) :
    Decidable (LayoutAgrees cuda f paramCount payloadSize) :=
  inferInstanceAs (Decidable (_ ∧ _ ∧ _))

variable {cuda} {f : CUfunction} {paramCount : ℕ} {payload : List UInt8}

theorem rpcReadKernelParamValues_append (rest : List UInt8)
    (h : payload.length = expectedPayloadSize (cuda.layout f).2) :
    ∃ values, rpcReadKernelParamValues (cuda.layout f).2 payload.length
      (storageSize (cuda.layout f).2) (payload ++ rest) = some (values, rest) := by
  rw [rpcReadKernelParamValues, if_neg (not_not_intro h)]
  exact readParamValues_append rest (le_foldl_max _ 0).2 (layout_small cuda f)
    (h.trans (expectedPayloadSize_layout cuda f))

/-- The launch reader, if it goes on, is behind the payload, and does not report success when the
layout and the header disagree. -/
theorem readLaunchParams_spec {entered : CUresult} {rest : List UInt8} {handled : Handled}
    (h : readLaunchParams cuda entered f paramCount payload.length (payload ++ rest)
      = some handled) :
    handled.inbound = rest ∧
      (¬ LayoutAgrees cuda f paramCount payload.length → handled.result ≠ .success) := by
  -- a handler that fails drains what the header has announced
  have hdrain : ∀ result, result ≠ .success →
      ((rpcDrain (payload ++ rest) payload.length).map fun rest ↦
        ({ result := result, inbound := rest } : Handled)) = some handled →
      handled.inbound = rest ∧
        (¬ LayoutAgrees cuda f paramCount payload.length → handled.result ≠ .success) := by
    intro result hresult hmap
    rw [rpcDrain_append, Option.map_some, Option.some_inj] at hmap
    rw [← hmap]
    exact ⟨rfl, fun _ ↦ hresult⟩
  rw [readLaunchParams] at h
  by_cases hentered : entered = .success
  · simp only [if_pos hentered] at h
    by_cases hcount : (cuda.layout f).1 = .success ∧ (cuda.layout f).2.length ≠ paramCount
    · rw [if_pos hcount, if_neg (by decide)] at h
      exact hdrain _ (by decide) h
    · rw [if_neg hcount] at h
      by_cases hlayout : (cuda.layout f).1 = .success
      · rw [if_pos hlayout] at h
        by_cases hsize : payload.length = expectedPayloadSize (cuda.layout f).2
        · obtain ⟨values, hvalues⟩ := rpcReadKernelParamValues_append rest hsize
          rw [hvalues, Option.map_some, Option.some_inj] at h
          rw [← h]
          have hlength : (cuda.layout f).2.length = paramCount :=
            not_not.mp fun hne ↦ hcount ⟨hlayout, hne⟩
          exact ⟨rfl, fun hdisagree ↦ absurd ⟨hlayout, hlength, hsize⟩ hdisagree⟩
        · rw [rpcReadKernelParamValues, if_pos hsize] at h
          exact absurd h (by simp)
      · rw [if_neg hlayout] at h
        exact hdrain _ hlayout h
  · simp only [if_neg hentered] at h
    have hcount : ¬ (entered = .success ∧ ([] : ParamLayout).length ≠ paramCount) :=
      fun hcount ↦ hentered hcount.1
    rw [if_neg hcount, if_neg hentered] at h
    exact hdrain _ hentered h

variable (cuda f paramCount payload) in
/-- The graph reader is behind the payload if and only if there is none or the layout agrees. -/
theorem readGraphParams_spec (rest : List UInt8) :
    ((readGraphParams cuda f paramCount payload.length (payload ++ rest)).inbound = rest
        ↔ payload = [] ∨ LayoutAgrees cuda f paramCount payload.length) ∧
      (¬ LayoutAgrees cuda f paramCount payload.length →
        (readGraphParams cuda f paramCount payload.length (payload ++ rest)).result
          ≠ .success) := by
  -- an early return leaves the payload in front of the rest
  have hearly : ∀ result, result ≠ .success → ¬ LayoutAgrees cuda f paramCount payload.length →
      (({ result := result, inbound := payload ++ rest } : Handled).inbound = rest
        ↔ payload = [] ∨ LayoutAgrees cuda f paramCount payload.length) ∧
      (¬ LayoutAgrees cuda f paramCount payload.length →
        ({ result := result, inbound := payload ++ rest } : Handled).result ≠ .success) := by
    intro result hresult hdisagree
    refine ⟨?_, fun _ ↦ hresult⟩
    rw [or_iff_left hdisagree]
    exact List.append_left_eq_self
  rw [readGraphParams]
  by_cases hlayout : (cuda.layout f).1 = .success
  · by_cases hcount : (cuda.layout f).2.length = paramCount
    · by_cases hsize : payload.length = expectedPayloadSize (cuda.layout f).2
      · obtain ⟨values, hvalues⟩ := rpcReadKernelParamValues_append rest hsize
        have hagrees : LayoutAgrees cuda f paramCount payload.length := ⟨hlayout, hcount, hsize⟩
        simp only [if_neg (not_not_intro hlayout), if_neg (not_not_intro hcount),
          if_neg (not_not_intro hsize), hvalues]
        exact ⟨iff_of_true trivial (Or.inr hagrees), fun h ↦ absurd hagrees h⟩
      · simp only [if_neg (not_not_intro hlayout), if_neg (not_not_intro hcount), if_pos hsize]
        exact hearly _ (by decide) fun h ↦ hsize h.2.2
    · simp only [if_neg (not_not_intro hlayout), if_pos hcount]
      exact hearly _ (by decide) fun h ↦ hcount h.2.1
  · simp only [if_pos hlayout]
    exact hearly _ hlayout fun h ↦ hlayout h.1

/-! ## Requests

The requests are listed with what their headers say, so that one statement is about all of them. -/

/-- A request that carries kernel parameters: what its header says. -/
inductive KernelRequest where
  | launchKernel (f : CUfunction) (ctx : CUcontext) (dims : LaunchDims) (stream : CUstream)
      (paramCount payloadSize : ℕ)
  | launchKernelEx (config : LaunchConfig) (f : CUfunction) (ctx : CUcontext)
      (paramCount : Option ℕ) (payloadSize : ℕ)
  | launchCooperativeKernel (f : CUfunction) (dims : LaunchDims) (stream : CUstream)
      (paramCount payloadSize : ℕ)
  | graphAddKernelNode (graph : CUgraph) (depCount deps : ℕ) (node : KernelNodeParams)
      (paramCount payloadSize : ℕ)
  | graphKernelNodeSetParams (hNode : ℕ) (node : KernelNodeParams) (paramCount payloadSize : ℕ)
  | graphExecKernelNodeSetParams (graphExec : CUgraphExec) (hNode : ℕ) (node : KernelNodeParams)
      (paramCount payloadSize : ℕ)
  deriving DecidableEq, Repr

namespace KernelRequest

def header : KernelRequest → List Field
  | launchKernel f ctx dims stream paramCount payloadSize =>
    launchKernelHeader f ctx dims stream paramCount payloadSize
  | launchKernelEx config f ctx paramCount payloadSize =>
    launchKernelExHeader config f ctx paramCount payloadSize
  | launchCooperativeKernel f dims stream paramCount payloadSize =>
    launchCooperativeKernelHeader f dims stream paramCount payloadSize
  | graphAddKernelNode graph depCount deps node paramCount payloadSize =>
    [⟨8, graph⟩] ++
      (dependencyFields depCount deps ++ graphParamsHeader node paramCount payloadSize)
  | graphKernelNodeSetParams hNode node paramCount payloadSize =>
    [⟨8, hNode⟩] ++ graphParamsHeader node paramCount payloadSize
  | graphExecKernelNodeSetParams graphExec hNode node paramCount payloadSize =>
    [⟨8, graphExec⟩, ⟨8, hNode⟩] ++ graphParamsHeader node paramCount payloadSize

def payloadSize : KernelRequest → ℕ
  | launchKernel _ _ _ _ _ payloadSize | launchKernelEx _ _ _ _ payloadSize
  | launchCooperativeKernel _ _ _ _ payloadSize | graphAddKernelNode _ _ _ _ _ payloadSize
  | graphKernelNodeSetParams _ _ _ payloadSize
  | graphExecKernelNodeSetParams _ _ _ _ payloadSize => payloadSize

def graph : KernelRequest → Bool
  | launchKernel .. | launchKernelEx .. | launchCooperativeKernel .. => false
  | graphAddKernelNode .. | graphKernelNodeSetParams .. | graphExecKernelNodeSetParams .. => true

def handle (cuda : KernelDriver) : KernelRequest → List UInt8 → Option Handled
  | launchKernel .. => handleManualCuLaunchKernel cuda
  | launchKernelEx .. => handleManualCuLaunchKernelEx cuda
  | launchCooperativeKernel .. => handleManualCuLaunchCooperativeKernel cuda
  | graphAddKernelNode .. => handleManualCuGraphAddKernelNode cuda
  | graphKernelNodeSetParams .. => handleManualCuGraphKernelNodeSetParams cuda
  | graphExecKernelNodeSetParams .. => handleManualCuGraphExecKernelNodeSetParams cuda

/-- The driver has a layout for the function of the request, with as many parameters and as many
bytes as the header says. A packed launch has no parameters of its own. -/
def Agrees (cuda : KernelDriver) : KernelRequest → Prop
  | launchKernel f _ _ _ paramCount payloadSize
  | launchKernelEx _ f _ (some paramCount) payloadSize
  | launchCooperativeKernel f _ _ paramCount payloadSize =>
    LayoutAgrees cuda f paramCount payloadSize
  | launchKernelEx _ _ _ none _ => True
  | graphAddKernelNode _ _ _ node paramCount payloadSize
  | graphKernelNodeSetParams _ node paramCount payloadSize
  | graphExecKernelNodeSetParams _ _ node paramCount payloadSize =>
    LayoutAgrees cuda (kernelNodeFunction node.func node.kern) paramCount payloadSize

/-- A handler that goes on to `rpc_read_end` has taken the payload, all of it and nothing else, and
a layout that could not be had or does not agree is an error. -/
def TakesPayload (cuda : KernelDriver) (request : KernelRequest) (payload rest : List UInt8) :
    Prop :=
  ∀ handled, request.handle cuda (encodeFields request.header ++ (payload ++ rest)) = some handled →
    handled.inbound = rest ∧ (¬ request.Agrees cuda → handled.result ≠ .success)

end KernelRequest

/-! ## Behind the header

The fields of a header are read back as they were written. A packed launch is behind its payload
then; a sized one is left to the launch reader. -/

@[simp] theorem Handled.inbound_andThen (handled : Handled) (next : CUresult) :
    (handled.andThen next).inbound = handled.inbound := rfl

/-- An error stays an error. -/
theorem Handled.result_andThen_ne {handled : Handled} {next : CUresult}
    (h : handled.result ≠ .success) : (handled.andThen next).result ≠ .success := by
  rwa [Handled.andThen, if_neg h]

theorem handleManualCuLaunchKernel_header {ctx : CUcontext} {dims : LaunchDims} {stream : CUstream}
    {payloadSize : ℕ}
    (h : ∀ field ∈ launchKernelHeader f ctx dims stream paramCount payloadSize, field.Fits)
    (input : List UInt8) :
    handleManualCuLaunchKernel cuda
        (encodeFields (launchKernelHeader f ctx dims stream paramCount payloadSize) ++ input)
      = (readLaunchParams cuda (cuda.enter ctx) f paramCount payloadSize input).map fun handled ↦
          (handled.andThen (cuda.ensureDynamicSharedAttribute f)).andThen cuda.call := by
  have hread := readFields_encode h input
  rw [handleManualCuLaunchKernel]
  rw [show [8, 8, 4, 4, 4, 4, 4, 4, 4, 8, 4, 8] = (launchKernelHeader f ctx dims stream paramCount
    payloadSize).map Field.width from rfl, hread, Option.map_eq_bind]
  rfl

theorem handleManualCuLaunchCooperativeKernel_header {dims : LaunchDims} {stream : CUstream}
    {payloadSize : ℕ}
    (h : ∀ field ∈ launchCooperativeKernelHeader f dims stream paramCount payloadSize, field.Fits)
    (input : List UInt8) :
    handleManualCuLaunchCooperativeKernel cuda
        (encodeFields (launchCooperativeKernelHeader f dims stream paramCount payloadSize) ++ input)
      = (readLaunchParams cuda .success f paramCount payloadSize input).map fun handled ↦
          handled.andThen cuda.call := by
  have hread := readFields_encode h input
  rw [handleManualCuLaunchCooperativeKernel]
  rw [show [8, 4, 4, 4, 4, 4, 4, 4, 8, 4, 8] = (launchCooperativeKernelHeader f dims stream
    paramCount payloadSize).map Field.width from rfl, hread, Option.map_eq_bind]
  rfl

variable (cuda) in
theorem handleGraphParams_header {node : KernelNodeParams} {payloadSize : ℕ}
    (h : ∀ field ∈ graphParamsHeader node paramCount payloadSize, field.Fits)
    (input : List UInt8) :
    handleGraphParams cuda (encodeFields (graphParamsHeader node paramCount payloadSize) ++ input)
      = some ((readGraphParams cuda (kernelNodeFunction node.func node.kern) paramCount payloadSize
          input).andThen cuda.call) := by
  have hread := readFields_encode h input
  rw [handleGraphParams]
  rw [show [8, 4, 4, 4, 4, 4, 4, 4, 4, 8, 8, 4, 8] = (graphParamsHeader node paramCount
    payloadSize).map Field.width from rfl, hread]
  rfl

theorem readGraphDependencies_fields {count deps : ℕ}
    (h : ∀ field ∈ dependencyFields count deps, field.Fits) (input : List UInt8) :
    readGraphDependencies (encodeFields (dependencyFields count deps) ++ input) = some input := by
  rw [dependencyFields] at h ⊢
  have hcount : ∀ field ∈ [(⟨8, count⟩ : Field)], field.Fits := by
    intro field hfield
    apply h
    split_ifs
    · exact hfield
    · exact List.mem_cons.mpr (Or.inl (List.mem_singleton.mp hfield))
  have hreadCount := readFields_encode hcount
  simp only [List.map_cons, List.map_nil] at hreadCount
  by_cases hzero : count = 0
  · rw [if_pos hzero, readGraphDependencies, hreadCount]
    exact if_pos hzero
  · rw [if_neg hzero] at h ⊢
    have hdeps : ∀ field ∈ [(⟨8 * count, deps⟩ : Field)], field.Fits :=
      fun field hfield ↦ h field (List.mem_cons_of_mem _ hfield)
    have hreadDeps := readFields_encode hdeps input
    rw [show [(⟨8, count⟩ : Field), ⟨8 * count, deps⟩]
        = [⟨8, count⟩] ++ [⟨8 * count, deps⟩] from rfl, encodeFields_append,
      List.append_assoc, readGraphDependencies, hreadCount]
    show (if count = 0 then _ else _) = _
    rw [if_neg hzero]
    rw [List.map_cons, List.map_nil] at hreadDeps
    rw [hreadDeps]
    rfl

theorem rpcReadLaunchConfig_fields {config : LaunchConfig}
    (h : ∀ field ∈ config.fields ++ config.attributeFields, field.Fits) (input : List UInt8) :
    rpcReadLaunchConfig
        (encodeFields config.fields ++ (encodeFields config.attributeFields ++ input))
      = some input := by
  have hconfig := readFields_encode (fun field hfield ↦ h field (List.mem_append_left _ hfield))
    (encodeFields config.attributeFields ++ input)
  have hattributes := readFields_encode
    (fun field hfield ↦ h field (List.mem_append_right _ hfield)) input
  rw [rpcReadLaunchConfig]
  rw [show [4, 4, 4, 4, 4, 4, 4, 4, 8, 8, 4, 4] = config.fields.map Field.width from rfl, hconfig]
  show (if config.numAttrs = 0 ∨ config.attrs = 0 then _ else _) = _
  rw [LaunchConfig.attributeFields] at hattributes ⊢
  by_cases hnone : config.numAttrs = 0 ∨ config.attrs = 0
  · rw [if_pos hnone, if_pos hnone]
    rfl
  · rw [if_neg hnone] at hattributes ⊢
    rw [if_neg hnone]
    rw [List.map_cons, List.map_nil] at hattributes
    rw [hattributes]
    rfl

theorem readSizedLaunch_fields {ctx : CUcontext} {payloadSize : ℕ}
    (h : ∀ field ∈ [(⟨4, paramCount⟩ : Field), ⟨8, payloadSize⟩], field.Fits)
    (input : List UInt8) :
    readSizedLaunch cuda f ctx
        (encodeFields [(⟨4, paramCount⟩ : Field), ⟨8, payloadSize⟩] ++ input)
      = readLaunchParams cuda (cuda.enter ctx) f paramCount payloadSize input := by
  have hsizes := readFields_encode h input
  simp only [List.map_cons, List.map_nil] at hsizes
  rw [readSizedLaunch, hsizes]
  rfl

theorem readPackedLaunch_fields {ctx : CUcontext} {payload rest : List UInt8} {handled : Handled}
    (h : ∀ field ∈ [(⟨8, payload.length⟩ : Field)], field.Fits)
    (hread : readPackedLaunch cuda ctx
      (encodeFields [(⟨8, payload.length⟩ : Field)] ++ (payload ++ rest)) = some handled) :
    handled.inbound = rest := by
  have hsizes := readFields_encode h (payload ++ rest)
  simp only [List.map_cons, List.map_nil] at hsizes
  rw [readPackedLaunch, hsizes] at hread
  simp only [Option.bind_eq_bind, Option.bind_some] at hread
  by_cases hlong : 2 ^ 30 < payload.length
  · rw [if_pos hlong] at hread
    exact absurd hread (by simp)
  · rw [if_neg hlong, unlessNegative_rpcRead_append rest (by omega), Option.map_some,
      Option.some_inj] at hread
    rw [← hread]

theorem handleManualCuLaunchKernelEx_fields {config : LaunchConfig} {ctx : CUcontext} {packed : ℕ}
    (hconfig : ∀ field ∈ config.fields ++ config.attributeFields, field.Fits)
    (hlaunch : ∀ field ∈ [(⟨8, f⟩ : Field), ⟨8, ctx⟩, ⟨1, packed⟩], field.Fits)
    (input : List UInt8) :
    handleManualCuLaunchKernelEx cuda (encodeFields config.fields ++
        (encodeFields config.attributeFields ++
          (encodeFields [(⟨8, f⟩ : Field), ⟨8, ctx⟩, ⟨1, packed⟩] ++ input)))
      = (if packed ≠ 0 then readPackedLaunch cuda ctx input
          else readSizedLaunch cuda f ctx input).map fun handled ↦
            (handled.andThen (cuda.ensureDynamicSharedAttribute f)).andThen cuda.call := by
  have hfields := readFields_encode hlaunch input
  simp only [List.map_cons, List.map_nil] at hfields
  rw [handleManualCuLaunchKernelEx, rpcReadLaunchConfig_fields hconfig, Option.bind_eq_bind,
    Option.bind_some, hfields]
  rfl

theorem handleManualCuGraphAddKernelNode_header {graph : CUgraph} {depCount deps : ℕ}
    {node : KernelNodeParams} {payloadSize : ℕ}
    (h : ∀ field ∈ [⟨8, graph⟩] ++ (dependencyFields depCount deps
      ++ graphParamsHeader node paramCount payloadSize), field.Fits) (input : List UInt8) :
    handleManualCuGraphAddKernelNode cuda (encodeFields ([⟨8, graph⟩] ++
        (dependencyFields depCount deps ++ graphParamsHeader node paramCount payloadSize)) ++ input)
      = some ((readGraphParams cuda (kernelNodeFunction node.func node.kern) paramCount payloadSize
          input).andThen cuda.call) := by
  have hgraph := readFields_encode fun field hfield ↦ h field (List.mem_append_left _ hfield)
  have hdeps := readGraphDependencies_fields fun field hfield ↦
    h field (List.mem_append_right _ (List.mem_append_left _ hfield))
  have hparams := handleGraphParams_header cuda fun field hfield ↦
    h field (List.mem_append_right _ (List.mem_append_right _ hfield))
  simp only [List.map_cons, List.map_nil] at hgraph
  simp only [handleManualCuGraphAddKernelNode, encodeFields_append, List.append_assoc, hgraph,
    hdeps, hparams, Option.bind_eq_bind, Option.bind_some]

/-- A handler that reads some fields and goes on with the node. -/
theorem handleGraphParams_behind (cuda : KernelDriver) {leading : List Field}
    {node : KernelNodeParams} {payloadSize : ℕ}
    (h : ∀ field ∈ leading ++ graphParamsHeader node paramCount payloadSize, field.Fits)
    (input : List UInt8) :
    ((readFields (leading.map Field.width)
        (encodeFields (leading ++ graphParamsHeader node paramCount payloadSize) ++ input)).bind
        fun read ↦ handleGraphParams cuda read.2)
      = some ((readGraphParams cuda (kernelNodeFunction node.func node.kern) paramCount payloadSize
          input).andThen cuda.call) := by
  have hleading := readFields_encode fun field hfield ↦ h field (List.mem_append_left _ hfield)
  have hparams := handleGraphParams_header cuda fun field hfield ↦
    h field (List.mem_append_right _ hfield)
  rw [encodeFields_append, List.append_assoc, hleading, Option.bind_some, hparams]

theorem handleManualCuGraphKernelNodeSetParams_header {hNode : ℕ} {node : KernelNodeParams}
    {payloadSize : ℕ}
    (h : ∀ field ∈ [⟨8, hNode⟩] ++ graphParamsHeader node paramCount payloadSize, field.Fits)
    (input : List UInt8) :
    handleManualCuGraphKernelNodeSetParams cuda
        (encodeFields ([⟨8, hNode⟩] ++ graphParamsHeader node paramCount payloadSize) ++ input)
      = some ((readGraphParams cuda (kernelNodeFunction node.func node.kern) paramCount payloadSize
          input).andThen cuda.call) := by
  have hbehind := handleGraphParams_behind cuda h input
  simp only [List.map_cons, List.map_nil] at hbehind
  rw [← hbehind]
  rfl

theorem handleManualCuGraphExecKernelNodeSetParams_header {graphExec : CUgraphExec} {hNode : ℕ}
    {node : KernelNodeParams} {payloadSize : ℕ}
    (h : ∀ field ∈ [⟨8, graphExec⟩, ⟨8, hNode⟩] ++ graphParamsHeader node paramCount payloadSize,
      field.Fits) (input : List UInt8) :
    handleManualCuGraphExecKernelNodeSetParams cuda (encodeFields ([⟨8, graphExec⟩, ⟨8, hNode⟩] ++
        graphParamsHeader node paramCount payloadSize) ++ input)
      = some ((readGraphParams cuda (kernelNodeFunction node.func node.kern) paramCount payloadSize
          input).andThen cuda.call) := by
  have hbehind := handleGraphParams_behind cuda h input
  simp only [List.map_cons, List.map_nil] at hbehind
  rw [← hbehind]
  rfl

/-! ## Every handler

It only matters whether the launch reader or the graph reader goes on. -/

namespace KernelRequest

variable {request : KernelRequest} {rest : List UInt8}

theorem takesPayload_of_launch {entered : CUresult} {finish : Handled → Handled}
    (hhandle : ∀ input, request.handle cuda (encodeFields request.header ++ input)
      = (readLaunchParams cuda entered f paramCount payload.length input).map finish)
    (hinbound : ∀ read, (finish read).inbound = read.inbound)
    (herror : ∀ read, read.result ≠ .success → (finish read).result ≠ .success)
    (hagrees : request.Agrees cuda ↔ LayoutAgrees cuda f paramCount payload.length) :
    request.TakesPayload cuda payload rest := by
  intro handled hhandled
  rw [hhandle] at hhandled
  obtain ⟨read, hread, rfl⟩ := Option.map_eq_some_iff.mp hhandled
  obtain ⟨hrest, hresult⟩ := readLaunchParams_spec hread
  exact ⟨(hinbound read).trans hrest, fun hdisagree ↦
    herror read (hresult (mt hagrees.mpr hdisagree))⟩

theorem takesPayload_iff_of_graph
    (hhandle : ∀ input, request.handle cuda (encodeFields request.header ++ input)
      = some ((readGraphParams cuda f paramCount payload.length input).andThen cuda.call))
    (hagrees : request.Agrees cuda ↔ LayoutAgrees cuda f paramCount payload.length) :
    request.TakesPayload cuda payload rest ↔ payload = [] ∨ request.Agrees cuda := by
  obtain ⟨hiff, herror⟩ := readGraphParams_spec cuda f paramCount payload rest
  rw [TakesPayload, hhandle, hagrees]
  constructor
  · intro h
    exact hiff.mp (h _ rfl).1
  · intro h handled hhandled
    rw [← Option.some.inj hhandled]
    exact ⟨hiff.mpr h, fun hdisagree ↦ Handled.result_andThen_ne (herror hdisagree)⟩

theorem takesPayload_of_launchEx {config : LaunchConfig} {ctx : CUcontext} {paramCount : Option ℕ}
    (h : ∀ field ∈ launchKernelExHeader config f ctx paramCount payload.length, field.Fits) :
    (launchKernelEx config f ctx paramCount payload.length).TakesPayload cuda payload rest := by
  cases paramCount with
  | some paramCount =>
    simp only [launchKernelExHeader, ← List.append_assoc config.fields] at h
    have hconfig := fun field hfield ↦ h field (List.mem_append_left _ hfield)
    have hlaunch := fun field hfield ↦
      h field (List.mem_append_right _ (List.mem_append_left _ hfield))
    have hsizes := fun field hfield ↦
      h field (List.mem_append_right _ (List.mem_append_right _ hfield))
    have hhandle : ∀ input, (launchKernelEx config f ctx (some paramCount) payload.length).handle
        cuda (encodeFields (launchKernelEx config f ctx (some paramCount) payload.length).header
          ++ input)
        = (readLaunchParams cuda (cuda.enter ctx) f paramCount payload.length input).map
          fun handled ↦
            (handled.andThen (cuda.ensureDynamicSharedAttribute f)).andThen cuda.call := by
      intro input
      simp only [handle, header, launchKernelExHeader, encodeFields_append, List.append_assoc]
      rw [handleManualCuLaunchKernelEx_fields hconfig hlaunch, if_neg (not_not_intro rfl),
        readSizedLaunch_fields hsizes]
    exact takesPayload_of_launch hhandle (fun _ ↦ rfl)
      (fun _ h ↦ Handled.result_andThen_ne (Handled.result_andThen_ne h)) Iff.rfl
  | none =>
    simp only [launchKernelExHeader, ← List.append_assoc config.fields] at h
    have hconfig := fun field hfield ↦ h field (List.mem_append_left _ hfield)
    have hlaunch := fun field hfield ↦
      h field (List.mem_append_right _ (List.mem_append_left _ hfield))
    have hsizes := fun field hfield ↦
      h field (List.mem_append_right _ (List.mem_append_right _ hfield))
    intro handled hhandled
    simp only [handle, header, launchKernelExHeader, encodeFields_append, List.append_assoc]
      at hhandled
    rw [handleManualCuLaunchKernelEx_fields hconfig hlaunch, if_pos (by decide)] at hhandled
    obtain ⟨read, hread, rfl⟩ := Option.map_eq_some_iff.mp hhandled
    have hrest := readPackedLaunch_fields hsizes hread
    exact ⟨hrest, fun hdisagree ↦ absurd trivial hdisagree⟩

end KernelRequest

/-- **The graph handlers do not drain.** The handlers of all requests take the payload off the
stream, except that a graph handler whose layout cannot be had or does not agree with the header
leaves a payload that is not empty. -/
theorem takesPayload_iff (cuda : KernelDriver) (request : KernelRequest)
    (h : ∀ field ∈ request.header, field.Fits) {payload : List UInt8} (rest : List UInt8)
    (hpayload : payload.length = request.payloadSize) :
    request.TakesPayload cuda payload rest
      ↔ (request.graph = true → payload = [] ∨ request.Agrees cuda) := by
  cases request with
  | launchKernel f ctx dims stream paramCount payloadSize =>
    obtain rfl : payload.length = payloadSize := hpayload
    refine iff_of_true ?_ (fun hgraph ↦ Bool.noConfusion hgraph)
    exact KernelRequest.takesPayload_of_launch (handleManualCuLaunchKernel_header h) (fun _ ↦ rfl)
      (fun _ h ↦ Handled.result_andThen_ne (Handled.result_andThen_ne h)) Iff.rfl
  | launchKernelEx config f ctx paramCount payloadSize =>
    obtain rfl : payload.length = payloadSize := hpayload
    refine iff_of_true ?_ (fun hgraph ↦ Bool.noConfusion hgraph)
    exact KernelRequest.takesPayload_of_launchEx h
  | launchCooperativeKernel f dims stream paramCount payloadSize =>
    obtain rfl : payload.length = payloadSize := hpayload
    refine iff_of_true ?_ (fun hgraph ↦ Bool.noConfusion hgraph)
    exact KernelRequest.takesPayload_of_launch (handleManualCuLaunchCooperativeKernel_header h)
      (fun _ ↦ rfl) (fun _ h ↦ Handled.result_andThen_ne h) Iff.rfl
  | graphAddKernelNode graph depCount deps node paramCount payloadSize =>
    obtain rfl : payload.length = payloadSize := hpayload
    refine Iff.trans ?_ (imp_iff_right rfl).symm
    exact KernelRequest.takesPayload_iff_of_graph (handleManualCuGraphAddKernelNode_header h)
      Iff.rfl
  | graphKernelNodeSetParams hNode node paramCount payloadSize =>
    obtain rfl : payload.length = payloadSize := hpayload
    refine Iff.trans ?_ (imp_iff_right rfl).symm
    exact KernelRequest.takesPayload_iff_of_graph
      (handleManualCuGraphKernelNodeSetParams_header h) Iff.rfl
  | graphExecKernelNodeSetParams graphExec hNode node paramCount payloadSize =>
    obtain rfl : payload.length = payloadSize := hpayload
    refine Iff.trans ?_ (imp_iff_right rfl).symm
    exact KernelRequest.takesPayload_iff_of_graph
      (handleManualCuGraphExecKernelNodeSetParams_header h) Iff.rfl

/-- A driver with one parameter of four bytes for every function, and success otherwise. -/
def oneParamDriver : KernelDriver where
  cuCtxGetCurrent := (.success, 1)
  cuCtxSetCurrent _ := .success
  cuFuncGetParamInfo _ := ⟨[⟨.success, 0, 4⟩], by decide⟩
  cuKernelGetParamInfo _ := ⟨[], by decide⟩
  ensureDynamicSharedAttribute _ := .success
  call := .success

/-- A node for the function 16, launched with one thread. -/
def oneThreadNode : KernelNodeParams where
  func := 16
  dims := ⟨1, 1, 1, 1, 1, 1, 0⟩
  reserved := 0
  kern := 0
  ctx := 0

instance (f : Field) : Decidable f.Fits := inferInstanceAs (Decidable (_ ∧ _))

/-- One parameter of four bytes, as the driver has it. -/
theorem takesPayload_iff_setParams :
    (KernelRequest.graphKernelNodeSetParams 32 oneThreadNode 1 4).TakesPayload oneParamDriver
        [1, 2, 3, 4] [5]
      ↔ ((KernelRequest.graphKernelNodeSetParams 32 oneThreadNode 1 4).graph = true →
        [1, 2, 3, 4] = ([] : List UInt8)
          ∨ (KernelRequest.graphKernelNodeSetParams 32 oneThreadNode 1 4).Agrees oneParamDriver) :=
  takesPayload_iff oneParamDriver _ (by decide) [5] rfl

/-- Two parameters for a function that has one: the payload stays in front of the next request. -/
theorem setParams_leaves_payload :
    ¬ (KernelRequest.graphKernelNodeSetParams 32 oneThreadNode 2 8).TakesPayload oneParamDriver
      [1, 2, 3, 4, 5, 6, 7, 8] [9] := by
  intro h
  have hhandled : (KernelRequest.graphKernelNodeSetParams 32 oneThreadNode 2 8).handle
      oneParamDriver (encodeFields (KernelRequest.graphKernelNodeSetParams 32 oneThreadNode 2
        8).header ++ ([1, 2, 3, 4, 5, 6, 7, 8] ++ [9]))
      = some ⟨.errorInvalidValue, [1, 2, 3, 4, 5, 6, 7, 8, 9]⟩ := by
    decide +kernel
  exact absurd (h _ hhandled).1 (by decide)

end Lupine
