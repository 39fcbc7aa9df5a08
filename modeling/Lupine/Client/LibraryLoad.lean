import Mathlib.Data.List.Induction
import Lupine.Server.KernelParams
import Lupine.Transport.JitOutputs

/-!
# Loading a library

The response to `cuLibraryLoadData` brings the table of the library's kernels along: their names,
their handles, and the offset and size of every parameter. The client puts these in two caches, so
that asking for a kernel by its name, or for its parameters, takes no request.

## Lengths

The server writes whatever the driver has. The client takes no name of more than 65535 characters
and no JIT output of more than 16 MiB: it returns with the rest of the response inbound and the
stream not released, and no later response is read.

## The limits, and both directions

The response is read when no name and no log is longer than the client takes, and it is rejected
when one is: the two are shown of a record first, then of the table, then of the response. What is
stored is shown for tables in which a name has one handle, as the cache of names has room for one.
-/

open Foundation

namespace Lupine

/-! ## The server

The limits of the driver and of object files are in the type of a library, since the sizes of the
response are computed from them without a check. -/

/-- What the driver answers about an image. A function of the driver has at most 32764 bytes of
parameters, and the names of a library are strings of an object file, which has 32-bit offsets. -/
structure LoadedLibrary where
  /-- Zero for `CUDA_SUCCESS`. -/
  result : UInt32
  library : UInt64
  /-- `cuLibraryGetKernelCount`; `none` when it fails. -/
  kernelCount : Option UInt32
  /-- `cuLibraryEnumerateKernels`, for as many kernels; `none` when it fails. -/
  enumerateKernels : UInt32 → Option (List UInt64)
  /-- `cuKernelGetName`, without the zero at the end; `none` when there is no name. -/
  kernelName : UInt64 → Option (List UInt8)
  /-- `cuKernelGetParamInfo` at the indices up to the first at which it fails. -/
  paramInfo : UInt64 → List (UInt64 × UInt64)
  library_ne_zero : result = 0 → library ≠ 0
  length_enumerate : ∀ count kernels, enumerateKernels count = some kernels →
    kernels.length = count.toNat
  name_length : ∀ kernel name, kernelName kernel = some name → name.length + 1 < 2 ^ 32
  param_length : ∀ kernel, (paramInfo kernel).length ≤ 32764

/-- `kernel_record` of the server. -/
structure KernelRecord where
  name : List UInt8
  kernel : UInt64
  params : List (UInt64 × UInt64)
  deriving DecidableEq, Repr

namespace LoadedLibrary

variable (lib : LoadedLibrary)

def kernels : List UInt64 :=
  match lib.kernelCount with
  | some count => if count ≠ 0 then (lib.enumerateKernels count).getD [] else []
  | none => []

/-- The record of a kernel; one without a name is left out. -/
def kernelRecord (kernel : UInt64) : Option KernelRecord :=
  if kernel = 0 then none
  else (lib.kernelName kernel).map fun name ↦ ⟨name, kernel, lib.paramInfo kernel⟩

/-- The records of the response; drivers before 12.4 cannot enumerate kernels. -/
def records (enumerates : Bool) : List KernelRecord :=
  if enumerates ∧ lib.result = 0 then lib.kernels.filterMap lib.kernelRecord else []

end LoadedLibrary

/-- The parameters of a record, as an array of words. -/
def KernelRecord.words (record : KernelRecord) : List ℕ :=
  record.params.flatMap fun p ↦ [p.1.toNat, p.2.toNat]

def writeKernelRecord (record : KernelRecord) : List UInt8 :=
  leBytes 4 (record.name.length + 1) ++ ((record.name ++ [0]) ++ (leBytes 8 record.kernel.toNat ++
    (leBytes 4 record.params.length ++ record.words.flatMap (leBytes 8))))

/-- `handle_manual_cuLibraryLoadData`, from the driver's answers on. -/
def handleManualCuLibraryLoadData (enumerates : Bool) (lib : LoadedLibrary)
    (options : List JitOption) (report : JitReport) : List UInt8 :=
  let records := lib.records enumerates
  leBytes 8 lib.library.toNat ++ (rpcWriteJitOutputs (jitOutputs options report) ++
    (leBytes 4 records.length ++ (records.flatMap writeKernelRecord ++
      leBytes 4 lib.result.toNat)))

/-! ## The response as the client reads it

A record has its name, its handle and an array of words, two for each parameter. -/

/-- `lupine_wire_kernel_record`. -/
structure WireKernelRecord where
  name : List UInt8
  kernel : ℕ
  paramCount : ℕ
  params : List ℕ
  deriving DecidableEq, Repr

def readKernelRecord : Reader UInt8 WireKernelRecord := do
  let nameLen ← rpcReadWord 4
  if nameLen = 0 ∨ 64 * 1024 < nameLen then failure
  else
    let name ← rpcReadBytes nameLen
    let kernel ← rpcReadWord 8
    let paramCount ← rpcReadWord 4
    let params ← if paramCount ≠ 0 then rpcReadBytes (paramCount * 2 * 8) else pure []
    pure ⟨name.take (nameLen - 1), kernel, paramCount, leWords 8 (paramCount * 2) params⟩

/-- What the client has when it releases the stream. -/
structure LibraryResponse where
  library : ℕ
  outputs : List (Option (HostPtr × List UInt8))
  table : List WireKernelRecord
  result : ℕ
  deriving DecidableEq, Repr

def readLibraryResponse (bindings : List JitBinding) : Reader UInt8 LibraryResponse := do
  let library ← rpcReadWord 8
  let outputs ← rpcReadJitOutputs bindings
  let tableCount ← rpcReadWord 4
  let table ← readKernelRecord.times tableCount
  let result ← rpcReadWord 4
  pure ⟨library, outputs, table, result⟩

/-! ## The caches

A parameter is kept by the handle and its index. The end of the parameters is kept too, so that the
loop over them needs no request. -/

/-- `lupine_param_info_cache`, by handle, index and whether it is a kernel's, and
`lupine_library_kernel_names`. -/
structure LibraryCaches where
  paramInfo : ℕ × ℕ × Bool → Option ParamInfo
  kernelNames : ℕ × List UInt8 → Option ℕ

namespace LibraryCaches

def insertParam (caches : LibraryCaches) (kernel i : ℕ) (info : ParamInfo) : LibraryCaches :=
  { caches with paramInfo := Function.update caches.paramInfo (kernel, i, true) (some info) }

/-- `lupine_cuGetParamInfo_cached` of a kernel; `ask` is what the server answers. -/
def getParamInfo (ask : ℕ → ℕ → ParamInfo) (kernel i : ℕ) (caches : LibraryCaches) :
    CUresult × LibraryCaches :=
  match caches.paramInfo (kernel, i, true) with
  | some cached => (cached.result, caches)
  | none =>
    let info := ask kernel i
    (info.result, if info.result = .success ∨ info.result = .errorInvalidValue then
      caches.insertParam kernel i info else caches)

/-- `lupine_warm_kernel_param_info` from an index on; `none` when the rounds do not suffice. -/
def warmKernelParamInfo (ask : ℕ → ℕ → ParamInfo) (kernel : ℕ) :
    ℕ → ℕ → LibraryCaches → Option (CUresult × LibraryCaches)
  | 0, _, _ => none
  | rounds + 1, i, caches =>
    let (result, caches) := getParamInfo ask kernel i caches
    if result = .errorInvalidValue then some (.success, caches)
    else if result ≠ .success then some (result, caches)
    else warmKernelParamInfo ask kernel rounds (i + 1) caches

/-- `lupine_record_library_kernel`, as far as the two caches go, on the route of a connection. -/
def recordLibraryKernel (ask : ℕ → ℕ → ParamInfo) (record : WireKernelRecord) (library : ℕ)
    (caches : LibraryCaches) : Option (CUresult × LibraryCaches) :=
  if record.kernel = 0 ∨ library = 0 then some (.errorInvalidValue, caches)
  else warmKernelParamInfo ask record.kernel (record.paramCount + 1) 0 caches

def insertParams (record : WireKernelRecord) (caches : LibraryCaches) : LibraryCaches :=
  ((List.range record.paramCount).foldl (fun caches i ↦ caches.insertParam record.kernel i
    ⟨.success, record.params.getD (i * 2) 0, record.params.getD (i * 2 + 1) 0⟩) caches).insertParam
      record.kernel record.paramCount ⟨.errorInvalidValue, 0, 0⟩

def prefillRecord (ask : ℕ → ℕ → ParamInfo) (library : ℕ) (caches : LibraryCaches)
    (record : WireKernelRecord) : LibraryCaches :=
  if record.kernel = 0 then caches
  else
    match recordLibraryKernel ask record library (caches.insertParams record) with
    | some (.success, caches) => { caches with
        kernelNames := Function.update caches.kernelNames (library, record.name)
          (some record.kernel) }
    | some (_, caches) => caches
    | none => caches

/-- `cuLibraryLoadData`, when the response is read. -/
def prefill (ask : ℕ → ℕ → ParamInfo) (response : LibraryResponse) (caches : LibraryCaches) :
    LibraryCaches :=
  if response.result = 0 then response.table.foldl (prefillRecord ask response.library) caches
  else caches

end LibraryCaches

/-! ## The table

A record with a name of up to 65535 characters is read, a longer name ends the reading. -/

def KernelRecord.wire (record : KernelRecord) : WireKernelRecord where
  name := record.name
  kernel := record.kernel.toNat
  paramCount := record.params.length
  params := record.words

namespace KernelRecord

variable {record : KernelRecord}

theorem length_words (record : KernelRecord) : record.words.length = record.params.length * 2 := by
  rw [words]
  generalize record.params = params
  induction params with
  | nil => rfl
  | cons p params ih =>
    have hcons : (p :: params).length = params.length + 1 := rfl
    rw [List.flatMap_cons, List.length_append, ih, hcons, Nat.succ_mul, Nat.add_comm]
    rfl

theorem words_lt : ∀ n ∈ record.words, n < 256 ^ 8 := by
  intro n hn
  obtain ⟨p, -, hp⟩ := List.mem_flatMap.mp hn
  rcases List.mem_pair.mp hp with rfl | rfl
  · exact p.1.toNat_lt
  · exact p.2.toNat_lt

theorem getD_words {i : ℕ} {p : UInt64 × UInt64} (h : record.params[i]? = some p) :
    record.words.getD (i * 2) 0 = p.1.toNat ∧ record.words.getD (i * 2 + 1) 0 = p.2.toNat := by
  rw [words]
  generalize record.params = params at h ⊢
  induction params generalizing i with
  | nil => exact absurd h (by simp)
  | cons q params ih =>
    cases i with
    | zero =>
      obtain rfl := Option.some.inj h
      exact ⟨rfl, rfl⟩
    | succ i =>
      have hrest := ih h
      rwa [Nat.succ_mul]

/-- **A record** with a name of up to 65535 characters is read. -/
theorem reads (hname : record.name.length < 64 * 1024) (hparams : record.params.length ≤ 32764) :
    readKernelRecord.Reads (writeKernelRecord record) record.wire := by
  have hsize : (record.words.flatMap (leBytes 8)).length = record.params.length * 2 * 8 := by
    rw [length_flatMap_leBytes, length_words]
  refine (reads_rpcReadWord (by decide) (by omega)).bind ?_
  rw [if_neg (by omega)]
  have hbytes : (rpcReadBytes (record.name.length + 1)).Reads (record.name ++ [0])
      (record.name ++ [0]) := reads_rpcReadBytes (by simp) (staticCastInt_nonneg (by omega))
  refine hbytes.bind ((reads_rpcReadWord (by decide) record.kernel.toNat_lt).bind
    ((reads_rpcReadWord (by decide) (by omega)).bind ?_))
  have hwire : record.wire = ⟨(record.name ++ [0]).take (record.name.length + 1 - 1),
      record.kernel.toNat, record.params.length,
      leWords 8 (record.params.length * 2) (record.words.flatMap (leBytes 8))⟩ := by
    rw [← length_words, leWords_flatMap_leBytes words_lt, Nat.add_sub_cancel, List.take_left]
    rfl
  rw [hwire]
  by_cases hzero : record.params.length = 0
  · have hnil : record.words.flatMap (leBytes 8) = [] :=
      List.length_eq_zero_iff.mp (by rw [hsize, hzero])
    rw [if_neg (not_not.mpr hzero), hnil]
    exact (Reader.reads_pure _).bind_pure
  · rw [if_pos hzero]
    exact (reads_rpcReadBytes hsize (staticCastInt_nonneg (by omega))).bind_pure

theorem rejects (hname : 64 * 1024 ≤ record.name.length)
    (hlength : record.name.length + 1 < 2 ^ 32) :
    readKernelRecord.Rejects (writeKernelRecord record) := by
  refine (reads_rpcReadWord (by decide) hlength).bind_rejects ?_
  rw [if_pos (Or.inr (by omega))]
  exact Reader.rejects_failure

end KernelRecord

namespace LoadedLibrary

variable {lib : LoadedLibrary} {enumerates : Bool} {record : KernelRecord}

theorem mem_records (h : record ∈ lib.records enumerates) :
    lib.result = 0 ∧ record.kernel ≠ 0 ∧ lib.kernelName record.kernel = some record.name ∧
      record.params = lib.paramInfo record.kernel := by
  rw [records] at h
  split_ifs at h with hresult
  · obtain ⟨kernel, -, hrecord⟩ := List.mem_filterMap.mp h
    rw [kernelRecord] at hrecord
    split_ifs at hrecord with hkernel
    obtain ⟨name, hname, rfl⟩ := Option.map_eq_some_iff.mp hrecord
    exact ⟨hresult.2, hkernel, hname, rfl⟩
  · exact absurd h List.not_mem_nil

theorem length_records_lt (lib : LoadedLibrary) (enumerates : Bool) :
    (lib.records enumerates).length < 2 ^ 32 := by
  rw [records]
  split_ifs
  · refine (List.length_filterMap_le _ _).trans_lt ?_
    rw [kernels]
    split
    · split_ifs
      · cases henumerate : lib.enumerateKernels _ with
        | none => exact Nat.two_pow_pos 32
        | some kernels =>
          rw [Option.getD_some, lib.length_enumerate _ _ henumerate]
          exact UInt32.toNat_lt _
      · exact Nat.two_pow_pos 32
    · exact Nat.two_pow_pos 32
  · exact Nat.two_pow_pos 32

theorem rejects_record (h : record ∈ lib.records enumerates)
    (hlong : 64 * 1024 ≤ record.name.length) :
    readKernelRecord.Rejects (writeKernelRecord record) := by
  obtain ⟨-, -, hname, -⟩ := mem_records h
  exact KernelRecord.rejects hlong (lib.name_length _ _ hname)

theorem reads_record (h : record ∈ lib.records enumerates)
    (hshort : record.name.length < 64 * 1024) :
    readKernelRecord.Reads (writeKernelRecord record) record.wire := by
  obtain ⟨-, -, -, hparams⟩ := mem_records h
  exact record.reads hshort (hparams ▸ lib.param_length _)

end LoadedLibrary

/-! ## Filling the caches

The loop over the parameters of a record stores them one by one; a record of another handle leaves
these entries alone. -/

namespace LibraryCaches

variable {ask : ℕ → ℕ → ParamInfo} {caches : LibraryCaches} {kernel library : ℕ}
  {record : KernelRecord}

@[simp]
theorem insertParam_kernelNames (i : ℕ) (info : ParamInfo) :
    (caches.insertParam kernel i info).kernelNames = caches.kernelNames := rfl

theorem insertParam_self (i : ℕ) (info : ParamInfo) :
    (caches.insertParam kernel i info).paramInfo (kernel, i, true) = some info :=
  Function.update_self ..

theorem insertParam_of_ne {key : ℕ × ℕ × Bool} {i : ℕ} {info : ParamInfo}
    (h : key ≠ (kernel, i, true)) :
    (caches.insertParam kernel i info).paramInfo key = caches.paramInfo key :=
  Function.update_of_ne h ..

theorem foldl_insertParam (caches : LibraryCaches) (kernel : ℕ) (info : ℕ → ParamInfo) (n : ℕ) :
    let after := (List.range n).foldl (fun caches i ↦ caches.insertParam kernel i (info i)) caches
    after.kernelNames = caches.kernelNames ∧
      (∀ i < n, after.paramInfo (kernel, i, true) = some (info i)) ∧
      ∀ key : ℕ × ℕ × Bool, key.1 ≠ kernel → after.paramInfo key = caches.paramInfo key := by
  induction n with
  | zero => exact ⟨rfl, fun i hi ↦ absurd hi (Nat.not_lt_zero i), fun _ _ ↦ rfl⟩
  | succ n ih =>
    obtain ⟨hnames, hdone, hother⟩ := ih
    rw [List.range_succ, List.foldl_append, List.foldl_cons, List.foldl_nil]
    refine ⟨hnames, fun i hi ↦ ?_, fun key hkey ↦ ?_⟩
    · by_cases heq : i = n
      · rw [heq]
        exact insertParam_self n (info n)
      · rw [insertParam_of_ne (by simp [heq])]
        exact hdone i (by omega)
    · rw [insertParam_of_ne fun heq ↦ hkey (congrArg Prod.fst heq)]
      exact hother key hkey

/-- What the entries of a record are. -/
theorem insertParams_spec (caches : LibraryCaches) (record : KernelRecord) :
    (caches.insertParams record.wire).kernelNames = caches.kernelNames ∧
      (∀ i p, record.params[i]? = some p →
        (caches.insertParams record.wire).paramInfo (record.kernel.toNat, i, true) =
          some ⟨.success, p.1.toNat, p.2.toNat⟩) ∧
      (caches.insertParams record.wire).paramInfo
        (record.kernel.toNat, record.params.length, true) = some ⟨.errorInvalidValue, 0, 0⟩ ∧
      ∀ key : ℕ × ℕ × Bool, key.1 ≠ record.kernel.toNat →
        (caches.insertParams record.wire).paramInfo key = caches.paramInfo key := by
  obtain ⟨hnames, hdone, hother⟩ := caches.foldl_insertParam record.kernel.toNat
    (fun i ↦ ⟨.success, record.words.getD (i * 2) 0, record.words.getD (i * 2 + 1) 0⟩)
    record.params.length
  refine ⟨hnames, fun i p hp ↦ ?_, insertParam_self _ _, fun key hkey ↦ ?_⟩
  · have hlt := (List.getElem?_eq_some_iff.mp hp).1
    obtain ⟨hoffset, hsize⟩ := KernelRecord.getD_words hp
    rw [← hoffset, ← hsize]
    exact (insertParam_of_ne (by simp [KernelRecord.wire, hlt.ne])).trans (hdone i hlt)
  · exact (insertParam_of_ne fun heq ↦ hkey (congrArg Prod.fst heq)).trans (hother key hkey)

/-- The loop ends, without a request, where the entries do. -/
theorem warmKernelParamInfo_of_cached {i n rounds : ℕ} (hrounds : n < i + rounds) (hi : i ≤ n)
    (hdone : ∀ j < n, ∃ info, caches.paramInfo (kernel, j, true) = some info ∧
      info.result = .success)
    (hend : ∃ info, caches.paramInfo (kernel, n, true) = some info ∧
      info.result = .errorInvalidValue) :
    warmKernelParamInfo ask kernel rounds i caches = some (.success, caches) := by
  induction rounds generalizing i with
  | zero => omega
  | succ rounds ih =>
    rw [warmKernelParamInfo, getParamInfo]
    by_cases heq : i = n
    · obtain ⟨info, hinfo, hresult⟩ := hend
      rw [heq, hinfo]
      simp only [hresult, if_true]
    · obtain ⟨info, hinfo, hresult⟩ := hdone i (by omega)
      rw [hinfo]
      simp only [hresult]
      exact ih (by omega) (by omega)

/-- **A record** of the server is stored as it is, and its name with it. -/
theorem prefillRecord_eq (hkernel : record.kernel ≠ 0) (hlibrary : library ≠ 0) :
    prefillRecord ask library caches record.wire =
      { caches.insertParams record.wire with
        kernelNames := Function.update caches.kernelNames (library, record.name)
          (some record.kernel.toNat) } := by
  have hnonzero : record.wire.kernel ≠ 0 := fun h ↦ hkernel (UInt64.toNat_inj.mp h)
  obtain ⟨hnames, hparams, hend, -⟩ := caches.insertParams_spec record
  have hwarm : warmKernelParamInfo ask record.wire.kernel (record.wire.paramCount + 1) 0
      (caches.insertParams record.wire) = some (.success, caches.insertParams record.wire) := by
    refine warmKernelParamInfo_of_cached (n := record.params.length)
      (by rw [Nat.zero_add]; exact Nat.lt_succ_self _) (Nat.zero_le _) (fun j hj ↦ ?_)
      ⟨_, hend, rfl⟩
    exact ⟨_, hparams j _ (List.getElem?_eq_getElem hj), rfl⟩
  rw [prefillRecord, if_neg hnonzero, recordLibraryKernel,
    if_neg (not_or.mpr ⟨hnonzero, hlibrary⟩), hwarm]
  simp only [hnames]
  rfl

/-- A kernel is found by its name, and its parameters are those of the record. -/
def Holds (caches : LibraryCaches) (library : ℕ) (record : KernelRecord) : Prop :=
  caches.kernelNames (library, record.name) = some record.kernel.toNat ∧
    ∀ i p, record.params[i]? = some p → caches.paramInfo (record.kernel.toNat, i, true) =
      some ⟨.success, p.1.toNat, p.2.toNat⟩

/-- **The table.** Its records are all there when a handle has one layout and a name one handle. -/
theorem holds_foldl {records : List KernelRecord} (hlibrary : library ≠ 0)
    (hkernel : ∀ r ∈ records, r.kernel ≠ 0)
    (hlayout : ∀ r ∈ records, ∀ r' ∈ records, r.kernel = r'.kernel → r.params = r'.params)
    (hname : ∀ r ∈ records, ∀ r' ∈ records, r.name = r'.name → r.kernel = r'.kernel) :
    ∀ r ∈ records, ((records.map KernelRecord.wire).foldl (prefillRecord ask library)
      caches).Holds library r := by
  induction records using List.reverseRecOn with
  | nil => exact fun r hr ↦ absurd hr List.not_mem_nil
  | append_singleton records last ih =>
    have hin : ∀ r ∈ records, r ∈ records ++ [last] := fun r ↦ List.mem_append_left _
    have hlast : last ∈ records ++ [last] := List.mem_append_right _ (List.mem_singleton_self _)
    have hbefore := ih (fun r hr ↦ hkernel r (hin r hr))
      (fun r hr r' hr' ↦ hlayout r (hin r hr) r' (hin r' hr'))
      fun r hr r' hr' ↦ hname r (hin r hr) r' (hin r' hr')
    rw [List.map_append, List.foldl_append, List.map_singleton, List.foldl_cons, List.foldl_nil,
      prefillRecord_eq (hkernel last hlast) hlibrary]
    set before := (records.map KernelRecord.wire).foldl (prefillRecord ask library) caches
    obtain ⟨-, hparams, -, hother⟩ := before.insertParams_spec last
    intro r hr
    rcases List.mem_append.mp hr with hr | hr
    · obtain ⟨hnamed, hdone⟩ := hbefore r hr
      constructor
      · by_cases heq : r.name = last.name
        · rw [heq, hname r (hin r hr) last hlast heq]
          exact Function.update_self ..
        · exact (Function.update_of_ne (fun h ↦ heq (congrArg Prod.snd h)) ..).trans hnamed
      · intro i p hp
        by_cases heq : r.kernel = last.kernel
        · rw [heq]
          exact hparams i p (hlayout r (hin r hr) last hlast heq ▸ hp)
        · exact (hother _ fun h ↦ heq (UInt64.toNat_inj.mp h)).trans (hdone i p hp)
    · rw [List.mem_singleton.mp hr]
      exact ⟨Function.update_self .., hparams⟩

end LibraryCaches

/-! ## The call

A response that is read is within the limits, so the condition is exact. -/

/-- The client reads the response and nothing else, and the caches have every record of the table
as the server enumerated it. -/
def LibraryLoadRight (enumerates : Bool) (lib : LoadedLibrary) (options : List JitOption)
    (report : JitReport) (ask : ℕ → ℕ → ParamInfo) (caches : LibraryCaches) : Prop :=
  ∃ response : LibraryResponse, (readLibraryResponse (captureJitClientBindings options)).Reads
      (handleManualCuLibraryLoadData enumerates lib options report) response ∧
    response.library = lib.library.toNat ∧ response.result = lib.result.toNat ∧
    ∀ record ∈ lib.records enumerates,
      (caches.prefill ask response).Holds lib.library.toNat record

/-- The JIT outputs and the names are no longer than the client takes, and a name has one handle. -/
structure LibraryFits (enumerates : Bool) (lib : LoadedLibrary) (options : List JitOption)
    (report : JitReport) : Prop where
  output_le : ∀ output ∈ jitOutputs options report, output.data.length ≤ maxJitOutputBytes
  name_lt : ∀ record ∈ lib.records enumerates, record.name.length < 64 * 1024
  name_inj : ∀ r ∈ lib.records enumerates, ∀ r' ∈ lib.records enumerates, r.name = r'.name →
    r.kernel = r'.kernel

section Load

variable {enumerates : Bool} {lib : LoadedLibrary} {options : List JitOption} {report : JitReport}
  {ask : ℕ → ℕ → ParamInfo} {caches : LibraryCaches} {bindings : List JitBinding}

def libraryResponse (bindings : List JitBinding) (enumerates : Bool) (lib : LoadedLibrary)
    (options : List JitOption) (report : JitReport) : LibraryResponse where
  library := lib.library.toNat
  outputs := (jitOutputs options report).map (storedJitOutput bindings)
  table := (lib.records enumerates).map KernelRecord.wire
  result := lib.result.toNat

theorem reads_libraryResponse
    (houtput : ∀ output ∈ jitOutputs options report, output.data.length ≤ maxJitOutputBytes)
    (hname : ∀ record ∈ lib.records enumerates, record.name.length < 64 * 1024) :
    (readLibraryResponse bindings).Reads (handleManualCuLibraryLoadData enumerates lib options
      report) (libraryResponse bindings enumerates lib options report) := by
  have hcount := length_jitOutputs_le options report
  refine (reads_rpcReadWord (by decide) lib.library.toNat_lt).bind
    ((reads_rpcReadJitOutputs (by omega) houtput).bind
      ((reads_rpcReadWord (by decide) (lib.length_records_lt enumerates)).bind
        ((Reader.reads_times fun record hrecord ↦ ?_).bind
          (reads_rpcReadWord (by decide) lib.result.toNat_lt).bind_pure)))
  exact LoadedLibrary.reads_record hrecord (hname record hrecord)

/-- A response that is read is within the limits. -/
theorem limits_of_reads {response : LibraryResponse}
    (h : (readLibraryResponse bindings).Reads
      (handleManualCuLibraryLoadData enumerates lib options report) response) :
    (∀ output ∈ jitOutputs options report, output.data.length ≤ maxJitOutputBytes) ∧
      ∀ record ∈ lib.records enumerates, record.name.length < 64 * 1024 := by
  have hcount := length_jitOutputs_le options report
  have hlibrary : (rpcReadWord 8).Reads _ _ := reads_rpcReadWord (by decide) lib.library.toNat_lt
  have houtput : ∀ output ∈ jitOutputs options report, output.data.length ≤ maxJitOutputBytes := by
    intro output hmem
    by_contra hlarge
    refine (hlibrary.bind_rejects (Reader.Rejects.bind ?_)).not_reads h
    exact rejects_rpcReadJitOutputs (by omega) (fun _ ↦ length_of_mem_jitOutputs)
      ⟨output, hmem, not_le.mp hlarge⟩
  refine ⟨houtput, fun record hrecord ↦ ?_⟩
  by_contra hlong
  refine (hlibrary.bind_rejects ((reads_rpcReadJitOutputs (by omega) houtput).bind_rejects
    ((reads_rpcReadWord (by decide) (lib.length_records_lt enumerates)).bind_rejects
      (Reader.Rejects.bind ?_)))).not_reads h
  refine Reader.rejects_times (v := KernelRecord.wire) (fun r hr ↦ ?_)
    ⟨record, hrecord, LoadedLibrary.rejects_record hrecord (not_lt.mp hlong)⟩
  rcases Nat.lt_or_ge r.name.length (64 * 1024) with hshort | hlong
  · exact Or.inl (LoadedLibrary.reads_record hr hshort)
  · exact Or.inr (LoadedLibrary.rejects_record hr hlong)

/-- **Loading a library** goes right if and only if the library and the logs fit. -/
theorem libraryLoadRight_iff : LibraryLoadRight enumerates lib options report ask caches ↔
    LibraryFits enumerates lib options report := by
  constructor
  · rintro ⟨response, hreads, -, -, hholds⟩
    obtain ⟨houtput, hname⟩ := limits_of_reads hreads
    refine ⟨houtput, hname, fun r hr r' hr' heq ↦ ?_⟩
    have hhandle := (hholds r hr).1
    rw [heq] at hhandle
    exact UInt64.toNat_inj.mp (Option.some.inj (hhandle.symm.trans (hholds r' hr').1))
  · rintro ⟨houtput, hname, hinj⟩
    refine ⟨libraryResponse _ enumerates lib options report, reads_libraryResponse houtput hname,
      rfl, rfl, fun record hrecord ↦ ?_⟩
    have hresult := (LoadedLibrary.mem_records hrecord).1
    have hlibrary : lib.library.toNat ≠ 0 := fun h ↦
      lib.library_ne_zero hresult (UInt64.toNat_inj.mp h)
    have hzero : lib.result.toNat = 0 := UInt32.toNat_inj.mpr hresult
    rw [LibraryCaches.prefill, libraryResponse, if_pos hzero]
    refine LibraryCaches.holds_foldl hlibrary (fun r hr ↦ (LoadedLibrary.mem_records hr).2.1)
      (fun r hr r' hr' heq ↦ ?_) hinj record hrecord
    rw [(LoadedLibrary.mem_records hr).2.2.2, (LoadedLibrary.mem_records hr').2.2.2, heq]

end Load

/-- A library with one kernel, which has one parameter and a name of so many characters. -/
def oneKernel (length : ℕ) (hlength : length + 1 < 2 ^ 32) : LoadedLibrary where
  result := 0
  library := 1
  kernelCount := some 1
  enumerateKernels count := if count = 1 then some [2] else none
  kernelName _ := some (List.replicate length 97)
  paramInfo _ := [(0, 8)]
  library_ne_zero _ := by decide
  length_enumerate count kernels h := by
    split_ifs at h with hcount
    rw [← Option.some.inj h, hcount]
    rfl
  name_length kernel name h := by
    rw [← Option.some.inj h, List.length_replicate]
    exact hlength
  param_length _ := by decide

section Oversized

variable {ask : ℕ → ℕ → ParamInfo} {caches : LibraryCaches} {report : JitReport}

theorem longName_rejected {length : ℕ} (hlength : length + 1 < 2 ^ 32)
    (hlong : 64 * 1024 ≤ length) (options : List JitOption) :
    ¬LibraryLoadRight true (oneKernel length hlength) options report ask caches := by
  rintro ⟨response, hreads, -⟩
  have hshort := (limits_of_reads hreads).2 ⟨List.replicate length 97, 2, [(0, 8)]⟩
    (List.mem_singleton_self _)
  rw [List.length_replicate] at hshort
  exact absurd hshort hlong.not_gt

theorem largeLog_rejected {size : UInt64} (hsize : maxJitOutputBytes < size.toNat)
    (lib : LoadedLibrary) :
    ¬LibraryLoadRight true lib [⟨5, 4096⟩, ⟨6, size⟩] report ask caches := by
  rintro ⟨response, hreads, -⟩
  have hlog : jitLogOutput [⟨5, 4096⟩, ⟨6, size⟩] jitErrorLogBuffer jitErrorLogBufferSizeBytes
      report.errorLog = [⟨5, (List.range size.toNat).map report.errorLog⟩] :=
    if_pos ⟨rfl, (Nat.zero_lt_of_lt hsize).ne'⟩
  have hsmall := (limits_of_reads hreads).1 ⟨5, (List.range size.toNat).map report.errorLog⟩ (by
    rw [jitOutputs, hlog]
    exact List.mem_append_right _ (List.mem_append_right _ (List.mem_singleton_self _)))
  rw [List.length_map, List.length_range] at hsmall
  exact absurd hsmall hsize.not_ge

end Oversized

/-- A name of 65536 characters, and an error log of one byte more than 16 MiB. -/
theorem oversized_response_rejected :
    (¬LibraryLoadRight true (oneKernel 65536 (by decide)) [] ⟨0, fun _ ↦ 0, fun _ ↦ 0⟩
      (fun _ _ ↦ ⟨.success, 0, 0⟩) ⟨fun _ ↦ none, fun _ ↦ none⟩) ∧
    ¬LibraryLoadRight true (oneKernel 3 (by decide)) [⟨5, 4096⟩, ⟨6, 16777217⟩]
      ⟨0, fun _ ↦ 0, fun _ ↦ 0⟩ (fun _ _ ↦ ⟨.success, 0, 0⟩) ⟨fun _ ↦ none, fun _ ↦ none⟩ :=
  ⟨longName_rejected _ (by decide) [], largeLog_rejected (by decide) _⟩

end Lupine
