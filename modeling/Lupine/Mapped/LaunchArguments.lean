import Lupine.Mapped.HostRanges

/-!
# Mapped pointers among the arguments of a launch

Before a kernel is launched the client looks at every argument of eight bytes. One that lies in the
host range of a mapped allocation is sent as the device pointer of the same byte, and every
allocation that an argument points into is taken for changed by the device.

## One argument for each allocation

The loop over the allocations is the outer one, and the loop over the arguments ends with the first
that points into the allocation. An argument is translated when it is the first into its allocation:
with an earlier one, by its host or its device address, the kernel receives the address of the
client.

## One entry, one allocation

An allocation changes at most one entry of the arguments, the one that it translates, and marks
itself at most once. So the loop over all allocations can be read off the loop for one: an argument
is translated exactly when some allocation translates it, and no two do, since host ranges are
apart.
-/

open Foundation

namespace Lupine

/-! ## Mapped allocations

The table is that of the host allocations, in the order of their bases. -/

/-- `lupine_mapped_host_snapshot`, as far as a launch reads it. -/
structure LaunchMapping where
  host : ℕ
  size : ℕ
  devicePtr : CUdeviceptr
  managed : Bool := false
  deriving DecidableEq, Repr

namespace LaunchMapping

def hostRange (m : LaunchMapping) : Span := ⟨m.host, m.size⟩

def deviceRange (m : LaunchMapping) : Span := ⟨m.devicePtr, m.size⟩

/-- `lupine_host_ptr_in_mapping`: what the pointer is translated to. -/
def hostPtrInMapping (ptr : CUdeviceptr) (m : LaunchMapping) : Option CUdeviceptr :=
  if ptr < m.host ∨ (m.host + m.size) % 2 ^ 64 ≤ ptr then none
  else some (devAdd m.devicePtr (ptr - m.host))

/-- `lupine_device_ptr_in_mapping`. -/
def devicePtrInMapping (ptr : CUdeviceptr) (m : LaunchMapping) : Bool :=
  decide (m.devicePtr ≤ ptr ∧ ptr < devAdd m.devicePtr m.size)

end LaunchMapping

/-- The table of the host allocations, with a field of its entries that only the copies read. The
ranges are apart and end below the end of the address space. -/
structure MappedHosts where
  table : HostTable
  clientToServerOnly : ℕ → Bool
  apart : table.entries.Pairwise fun e e' ↦
    (⟨e.1, e.2.size⟩ : Span).Apart ⟨e'.1, e'.2.size⟩
  host_lt : ∀ e ∈ table.entries, e.1 + e.2.size < 2 ^ 64
  device_lt : ∀ e ∈ table.entries, e.2.devicePtr + e.2.size < 2 ^ 64
  /-- Both calls of `lupine_register_host` pass `false`. -/
  copiedBack : ∀ base, clientToServerOnly base = false

/-- `lupine_mapped_host_snapshots`. -/
def MappedHosts.snapshots (hosts : MappedHosts) : List LaunchMapping :=
  (hosts.table.entries.filter fun e ↦ e.2.devicePtr ≠ 0 ∧ e.2.localCuda = false).map fun e ↦
    { host := e.1, size := e.2.size, devicePtr := e.2.devicePtr, managed := e.2.managed }

/-! ## The call

The loops are over lists here, with the index of the argument they have come to. -/

/-- A kernel argument: its size and, for one of eight bytes, its word. -/
structure LaunchArg where
  size : ℕ
  word : CUdeviceptr
  deriving DecidableEq, Repr

structure LaunchSync where
  /-- The word of `translated_params` that an entry of `rpc_params` points at; `none` when the entry
  is the caller's own. -/
  rpcParams : ℕ → Option CUdeviceptr := fun _ ↦ none
  /-- `device_dirty` of the allocation at a base. -/
  deviceDirty : ℕ → Bool
  usedManaged : Bool := false

/-- `lupine_mark_mapped_device_dirty`. -/
def markMappedDeviceDirty (hosts : MappedHosts) (host : ℕ) (deviceDirty : ℕ → Bool) : ℕ → Bool :=
  match findHostAllocationLocked hosts.table host with
  | some (base, _) =>
    if hosts.clientToServerOnly base then deviceDirty else Function.update deviceDirty base true
  | none => deviceDirty

namespace LaunchSync

/-- What the loop does when an argument points into an allocation. -/
def use (hosts : MappedHosts) (m : LaunchMapping) (st : LaunchSync) : LaunchSync :=
  { st with
    deviceDirty := markMappedDeviceDirty hosts m.host st.deviceDirty
    usedManaged := st.usedManaged || m.managed }

def translate (hosts : MappedHosts) (m : LaunchMapping) (i : ℕ) (translated : CUdeviceptr)
    (st : LaunchSync) : LaunchSync :=
  { st.use hosts m with rpcParams := Function.update st.rpcParams i (some translated) }

/-- The loop over the arguments for one allocation, from an index on. -/
def scanParams (hosts : MappedHosts) (m : LaunchMapping) :
    ℕ → List LaunchArg → LaunchSync → LaunchSync
  | _, [], st => st
  | i, arg :: rest, st =>
    if arg.size ≠ 8 then scanParams hosts m (i + 1) rest st
    else
      match m.hostPtrInMapping arg.word with
      | some translated => st.translate hosts m i translated
      | none =>
        if m.devicePtrInMapping arg.word then st.use hosts m
        else scanParams hosts m (i + 1) rest st

end LaunchSync

/-- `lupine_sync_mapped_host_to_device_for_launch`; `present` when none of the four arrays is null,
and `flush` is what the flush of the dirty pages answers. -/
def syncMappedHostToDeviceForLaunch (hosts : MappedHosts) (deviceDirty : ℕ → Bool)
    (present : Bool) (params : List LaunchArg) (flush : CUresult) : CUresult × LaunchSync :=
  if present then
    (flush, hosts.snapshots.foldl (fun st m ↦ st.scanParams hosts m 0 params) { deviceDirty })
  else (if params = [] then .success else .errorInvalidValue, { deviceDirty })

/-! ## Pointers into an allocation

An argument points into an allocation by a host or by a device address; only the first way leads to
a translation. -/

/-- An argument that points into an allocation, by a host or a device address. -/
def LaunchMapping.PointedBy (m : LaunchMapping) (arg : LaunchArg) : Prop :=
  arg.size = 8 ∧ (m.hostRange.Covers arg.word ∨ m.deviceRange.Covers arg.word)

instance (m : LaunchMapping) (arg : LaunchArg) : Decidable (m.PointedBy arg) :=
  inferInstanceAs (Decidable (_ ∧ _))

/-- The first argument that points into an allocation. -/
def FirstInto (params : List LaunchArg) (m : LaunchMapping) (i : ℕ) : Prop :=
  (∃ arg, params[i]? = some arg ∧ m.PointedBy arg) ∧
    ∀ j < i, ∀ arg, params[j]? = some arg → ¬m.PointedBy arg

/-- An allocation within the address space. -/
def LaunchMapping.Bounded (m : LaunchMapping) : Prop :=
  m.host + m.size < 2 ^ 64 ∧ m.devicePtr + m.size < 2 ^ 64

section Mapping

variable {m : LaunchMapping} {ptr v : CUdeviceptr}

theorem LaunchMapping.hostPtrInMapping_eq_some (hm : m.Bounded) :
    m.hostPtrInMapping ptr = some v ↔
      m.hostRange.Covers ptr ∧ v = m.devicePtr + (ptr - m.host) := by
  obtain ⟨hhost, hdevice⟩ := hm
  rw [hostPtrInMapping, Nat.mod_eq_of_lt hhost]
  split_ifs with h
  · refine iff_of_false nofun fun hcov ↦ ?_
    rcases h with h | h
    · exact absurd hcov.1.1 h.not_ge
    · exact absurd hcov.1.2 h.not_gt
  · rw [not_or, not_lt, not_le] at h
    have hlt : ptr - m.host < m.size := Nat.sub_lt_left_of_lt_add h.1 h.2
    rw [devAdd, Nat.mod_eq_of_lt ((Nat.add_lt_add_left hlt _).trans hdevice), Option.some.injEq,
      eq_comm]
    exact (and_iff_right h).symm

theorem LaunchMapping.devicePtrInMapping_iff (hm : m.Bounded) :
    m.devicePtrInMapping ptr = true ↔ m.deviceRange.Covers ptr := by
  rw [devicePtrInMapping, decide_eq_true_iff, devAdd, Nat.mod_eq_of_lt hm.2]
  rfl

end Mapping

section Snapshots

variable {hosts : MappedHosts} {m m' : LaunchMapping}

theorem MappedHosts.mem_snapshots (hm : m ∈ hosts.snapshots) :
    ∃ e ∈ hosts.table.entries, m.host = e.1 ∧ m.size = e.2.size ∧ m.devicePtr = e.2.devicePtr := by
  obtain ⟨e, he, rfl⟩ := List.mem_map.mp hm
  exact ⟨e, List.mem_of_mem_filter he, rfl, rfl, rfl⟩

theorem MappedHosts.bounded (hm : m ∈ hosts.snapshots) : m.Bounded := by
  obtain ⟨e, he, hhost, hsize, hdevice⟩ := mem_snapshots hm
  rw [LaunchMapping.Bounded, hhost, hsize, hdevice]
  exact ⟨hosts.host_lt e he, hosts.device_lt e he⟩

/-- The host ranges of the allocations are apart. -/
theorem MappedHosts.snapshots_apart :
    hosts.snapshots.Pairwise fun m m' ↦ m.hostRange.Apart m'.hostRange :=
  List.pairwise_map.mpr (hosts.apart.filter _)

theorem MappedHosts.mark_eq (hm : m ∈ hosts.snapshots) (deviceDirty : ℕ → Bool) :
    markMappedDeviceDirty hosts m.host deviceDirty = Function.update deviceDirty m.host true := by
  obtain ⟨e, he, hhost, -, -⟩ := mem_snapshots hm
  have hfind : findHostAllocationLocked hosts.table m.host = some e := by
    rw [findHostAllocationLocked, OrderedTable.find?_eq_some.mpr ⟨he, hhost.symm⟩]
  rw [markMappedDeviceDirty, hfind, hhost]
  exact if_neg (ne_true_of_eq_false (hosts.copiedBack e.1))

end Snapshots

/-! ## The loops

An argument that does not point into the allocation only moves the index. The first that does ends
the loop. -/

namespace LaunchSync

variable {hosts : MappedHosts} {m : LaunchMapping} {params : List LaunchArg} {st : LaunchSync}

/-- What the loop for one allocation comes to: nothing without an argument into it, and else the
first such argument is dealt with. -/
def Scanned (hosts : MappedHosts) (m : LaunchMapping) (k : ℕ) (params : List LaunchArg)
    (st after : LaunchSync) : Prop :=
  (after = st ∧ ∀ arg ∈ params, ¬m.PointedBy arg) ∨
    ∃ i arg, params[i]? = some arg ∧ FirstInto params m i ∧ after =
      if m.hostRange.Covers arg.word then
        st.translate hosts m (k + i) (m.devicePtr + (arg.word - m.host))
      else st.use hosts m

theorem Scanned.skip {k : ℕ} {arg : LaunchArg} {rest : List LaunchArg} {after : LaunchSync}
    (hnot : ¬m.PointedBy arg) (h : Scanned hosts m (k + 1) rest st after) :
    Scanned hosts m k (arg :: rest) st after := by
  rcases h with ⟨hst, hrest⟩ | ⟨i, a, ha, ⟨hinto, hbefore⟩, hst⟩
  · exact Or.inl ⟨hst, List.forall_mem_cons.mpr ⟨hnot, hrest⟩⟩
  · refine Or.inr ⟨i + 1, a, ha, ⟨hinto, fun j hj a' ha' ↦ ?_⟩, ?_⟩
    · cases j with
      | zero => exact Option.some.inj ha' ▸ hnot
      | succ j => exact hbefore j (Nat.lt_of_succ_lt_succ hj) a' ha'
    · rw [hst, Nat.add_right_comm k 1 i, Nat.add_assoc k i 1]

/-- **One allocation.** -/
theorem scanned_scanParams (hm : m.Bounded) (k : ℕ) :
    Scanned hosts m k params st (scanParams hosts m k params st) := by
  induction params generalizing k with
  | nil => exact Or.inl ⟨rfl, fun arg harg ↦ absurd harg List.not_mem_nil⟩
  | cons arg rest ih =>
    have hfirst : m.PointedBy arg → FirstInto (arg :: rest) m 0 := fun hinto ↦
      ⟨⟨arg, rfl, hinto⟩, fun j hj ↦ absurd hj (Nat.not_lt_zero j)⟩
    by_cases hsize : arg.size = 8
    · rw [scanParams, if_neg (not_not.mpr hsize)]
      cases hhost : m.hostPtrInMapping arg.word with
      | some translated =>
        obtain ⟨hcov, rfl⟩ := (LaunchMapping.hostPtrInMapping_eq_some hm).mp hhost
        exact Or.inr ⟨0, arg, rfl, hfirst ⟨hsize, Or.inl hcov⟩, (if_pos hcov).symm⟩
      | none =>
        have hcov : ¬m.hostRange.Covers arg.word := fun hcov ↦ by
          have hsome := (LaunchMapping.hostPtrInMapping_eq_some hm).mpr ⟨hcov, rfl⟩
          rw [hhost] at hsome
          exact absurd hsome nofun
        dsimp only
        split_ifs with hdevice <;> rw [LaunchMapping.devicePtrInMapping_iff hm] at hdevice
        · exact Or.inr ⟨0, arg, rfl, hfirst ⟨hsize, Or.inr hdevice⟩, (if_neg hcov).symm⟩
        · exact Scanned.skip (fun hinto ↦ hinto.2.elim hcov hdevice) (ih (k + 1))
    · rw [scanParams, if_pos hsize]
      exact Scanned.skip (fun hinto ↦ hsize hinto.1) (ih (k + 1))

end LaunchSync

/-- The word that an allocation gives for the argument at an index. -/
def LaunchMapping.Translates (m : LaunchMapping) (params : List LaunchArg) (i : ℕ)
    (v : CUdeviceptr) : Prop :=
  FirstInto params m i ∧ ∃ arg, params[i]? = some arg ∧ m.hostRange.Covers arg.word ∧
    v = m.devicePtr + (arg.word - m.host)

namespace LaunchSync

variable {hosts : MappedHosts} {m : LaunchMapping} {params : List LaunchArg} {st : LaunchSync}
  {i : ℕ} {v : CUdeviceptr}

@[simp]
theorem translate_rpcParams : (st.translate hosts m i v).rpcParams =
    Function.update st.rpcParams i (some v) := rfl

/-- Only one argument is the first into an allocation. -/
theorem firstInto_unique {j : ℕ} (hi : FirstInto params m i)
    (hj : FirstInto params m j) : i = j := by
  obtain ⟨⟨arg, harg, hinto⟩, hbefore⟩ := hi
  obtain ⟨⟨arg', harg', hinto'⟩, hbefore'⟩ := hj
  by_contra hne
  rcases Nat.lt_or_gt_of_ne hne with hlt | hlt
  · exact hbefore' i hlt arg harg hinto
  · exact hbefore j hlt arg' harg' hinto'

theorem scanParams_rpcParams (hm : m.Bounded) :
    (scanParams hosts m 0 params st).rpcParams i = some v ↔
      m.Translates params i v ∨ st.rpcParams i = some v ∧ ∀ w, ¬m.Translates params i w := by
  have hkeep : (∀ w, ¬m.Translates params i w) →
      (scanParams hosts m 0 params st).rpcParams i = st.rpcParams i →
      ((scanParams hosts m 0 params st).rpcParams i = some v ↔
        m.Translates params i v ∨ st.rpcParams i = some v ∧ ∀ w, ¬m.Translates params i w) := by
    intro hnot heq
    rw [heq]
    exact ⟨fun h ↦ Or.inr ⟨h, hnot⟩, fun h ↦ h.elim (fun ht ↦ absurd ht (hnot v)) And.left⟩
  have hscan : Scanned hosts m 0 params st _ := scanned_scanParams hm 0
  rcases hscan with ⟨hst, hnone⟩ | ⟨j, arg, harg, hfirst, hst⟩
  · refine hkeep ?_ (congrFun (congrArg rpcParams hst) i)
    rintro w ⟨⟨⟨arg, harg, hinto⟩, -⟩, -⟩
    exact hnone arg (List.mem_of_getElem? harg) hinto
  · rw [Nat.zero_add] at hst
    by_cases hcov : m.hostRange.Covers arg.word
    · rw [if_pos hcov] at hst
      by_cases hij : i = j
      · subst hij
        have hv : m.Translates params i (m.devicePtr + (arg.word - m.host)) :=
          ⟨hfirst, arg, harg, hcov, rfl⟩
        rw [hst, translate_rpcParams, Function.update_self, Option.some.injEq]
        constructor
        · rintro rfl
          exact Or.inl hv
        · rintro (⟨-, arg', harg', -, rfl⟩ | ⟨-, hnot⟩)
          · rw [Option.some.inj (harg.symm.trans harg')]
          · exact absurd hv (hnot _)
      · refine hkeep (fun w hw ↦ hij (firstInto_unique hw.1 hfirst)) ?_
        rw [hst]
        exact Function.update_of_ne hij ..
    · rw [if_neg hcov] at hst
      refine hkeep ?_ (congrFun (congrArg rpcParams hst) i)
      rintro w ⟨hfirst', arg', harg', hcov', -⟩
      obtain rfl := firstInto_unique hfirst hfirst'
      exact hcov (Option.some.inj (harg.symm.trans harg') ▸ hcov')

theorem scanParams_deviceDirty (hm : m ∈ hosts.snapshots) (base : ℕ) :
    (scanParams hosts m 0 params st).deviceDirty base = true ↔
      st.deviceDirty base = true ∨ m.host = base ∧ ∃ arg ∈ params, m.PointedBy arg := by
  have hscan : Scanned hosts m 0 params st _ := scanned_scanParams (MappedHosts.bounded hm) 0
  rcases hscan with ⟨hst, hnone⟩ | ⟨j, arg, harg, ⟨⟨arg', harg', hinto⟩, -⟩, hst⟩
  · rw [hst]
    refine (or_iff_left ?_).symm
    rintro ⟨-, arg, harg, hinto⟩
    exact hnone arg harg hinto
  · have hdirty : (scanParams hosts m 0 params st).deviceDirty =
        Function.update st.deviceDirty m.host true := by
      rw [hst, ← MappedHosts.mark_eq hm]
      split_ifs <;> rfl
    rw [hdirty]
    by_cases hbase : base = m.host
    · subst hbase
      rw [Function.update_self]
      exact iff_of_true rfl (Or.inr ⟨rfl, arg', List.mem_of_getElem? harg', hinto⟩)
    · rw [Function.update_of_ne hbase]
      exact (or_iff_left fun h ↦ hbase h.1.symm).symm

/-- **The loop over the allocations.** What it has translated and marked. -/
theorem foldl_scanParams {ms : List LaunchMapping} (hms : ∀ m ∈ ms, m ∈ hosts.snapshots)
    (hapart : ms.Pairwise fun m m' ↦ m.hostRange.Apart m'.hostRange) (deviceDirty : ℕ → Bool) :
    (∀ i v, (ms.foldl (fun st m ↦ scanParams hosts m 0 params st) { deviceDirty }).rpcParams i =
      some v ↔ ∃ m ∈ ms, m.Translates params i v) ∧
    ∀ base, (ms.foldl (fun st m ↦ scanParams hosts m 0 params st)
        { deviceDirty }).deviceDirty base = true ↔
      deviceDirty base = true ∨ ∃ m ∈ ms, m.host = base ∧ ∃ arg ∈ params, m.PointedBy arg := by
  induction ms using List.reverseRecOn with
  | nil => simp
  | append_singleton ms m ih =>
    obtain ⟨hdone, hm⟩ := List.forall_mem_append.mp hms
    obtain ⟨hpairs, -, hcross⟩ := List.pairwise_append.mp hapart
    obtain ⟨hrpc, hdirty⟩ := ih hdone hpairs
    have hm : m ∈ hosts.snapshots := hm m (List.mem_singleton_self m)
    rw [List.foldl_append, List.foldl_cons, List.foldl_nil]
    constructor
    · intro i v
      rw [scanParams_rpcParams (MappedHosts.bounded hm), hrpc]
      constructor
      · rintro (hv | ⟨⟨m', hm', hv⟩, -⟩)
        · exact ⟨m, List.mem_append_right _ (List.mem_singleton_self m), hv⟩
        · exact ⟨m', List.mem_append_left _ hm', hv⟩
      · rintro ⟨m', hm', hv⟩
        rcases List.mem_append.mp hm' with hm' | hm'
        -- the argument lies in the range of one allocation only
        · refine Or.inr ⟨⟨m', hm', hv⟩, fun w hw ↦ ?_⟩
          obtain ⟨-, arg, harg, hcov, -⟩ := hv
          obtain ⟨-, arg', harg', hcov', -⟩ := hw
          rw [← Option.some.inj (harg.symm.trans harg')] at hcov'
          exact (hcross m' hm' m (List.mem_singleton_self m)).not_covers hcov hcov'
        · exact Or.inl (List.mem_singleton.mp hm' ▸ hv)
    · intro base
      rw [scanParams_deviceDirty hm, hdirty, or_assoc]
      refine or_congr_right ?_
      constructor
      · rintro (⟨m', hm', h⟩ | h)
        · exact ⟨m', List.mem_append_left _ hm', h⟩
        · exact ⟨m, List.mem_append_right _ (List.mem_singleton_self m), h⟩
      · rintro ⟨m', hm', h⟩
        rcases List.mem_append.mp hm' with hm' | hm'
        · exact Or.inl ⟨m', hm', h⟩
        · exact Or.inr (List.mem_singleton.mp hm' ▸ h)

/-- The eight bytes that the kernel receives for an argument. -/
def sent (st : LaunchSync) (i : ℕ) (arg : LaunchArg) : CUdeviceptr :=
  (st.rpcParams i).getD arg.word

end LaunchSync

/-! ## Every argument -/

/-- Exactly the arguments in a host range are translated, and every allocation met is marked. -/
structure ArgumentsSynced (hosts : MappedHosts) (params : List LaunchArg) (after : LaunchSync) :
    Prop where
  translated : ∀ i arg, params[i]? = some arg → arg.size = 8 → ∀ m ∈ hosts.snapshots,
    m.hostRange.Covers arg.word → after.sent i arg = m.devicePtr + (arg.word - m.host)
  unchanged : ∀ i arg, params[i]? = some arg →
    (arg.size = 8 → ∀ m ∈ hosts.snapshots, ¬m.hostRange.Covers arg.word) →
    after.rpcParams i = none
  marked : ∀ m ∈ hosts.snapshots, (∃ arg ∈ params, m.PointedBy arg) →
    after.deviceDirty m.host = true

/-- An argument in the host range of an allocation that moves its pointers has none before it that
points into the allocation. -/
def HostPointersFirst (hosts : MappedHosts) (params : List LaunchArg) : Prop :=
  ∀ m ∈ hosts.snapshots, m.devicePtr ≠ m.host → ∀ i arg, params[i]? = some arg → arg.size = 8 →
    m.hostRange.Covers arg.word → FirstInto params m i

section Call

variable (hosts : MappedHosts) (deviceDirty : ℕ → Bool) (params : List LaunchArg) (flush : CUresult)

theorem syncMapped_rpcParams (i : ℕ) (v : CUdeviceptr) :
    (syncMappedHostToDeviceForLaunch hosts deviceDirty true params flush).2.rpcParams i = some v ↔
      ∃ m ∈ hosts.snapshots, m.Translates params i v :=
  (LaunchSync.foldl_scanParams (fun _ hm ↦ hm) hosts.snapshots_apart deviceDirty).1 i v

theorem syncMapped_deviceDirty (base : ℕ) :
    (syncMappedHostToDeviceForLaunch hosts deviceDirty true params flush).2.deviceDirty base =
        true ↔
      deviceDirty base = true ∨
        ∃ m ∈ hosts.snapshots, m.host = base ∧ ∃ arg ∈ params, m.PointedBy arg :=
  (LaunchSync.foldl_scanParams (fun _ hm ↦ hm) hosts.snapshots_apart deviceDirty).2 base

/-- What an argument in a host range is sent as: the device pointer when it is the first into its
allocation, and else the caller's own word. -/
theorem syncMapped_sent {i : ℕ} {arg : LaunchArg} {m : LaunchMapping} (harg : params[i]? = some arg)
    (hm : m ∈ hosts.snapshots) (hcov : m.hostRange.Covers arg.word)
    [Decidable (FirstInto params m i)] :
    (syncMappedHostToDeviceForLaunch hosts deviceDirty true params flush).2.sent i arg =
      if FirstInto params m i then m.devicePtr + (arg.word - m.host) else arg.word := by
  split_ifs with hfirst
  · have hsome := (syncMapped_rpcParams hosts deviceDirty params flush i _).mpr
      ⟨m, hm, hfirst, arg, harg, hcov, rfl⟩
    rw [LaunchSync.sent, hsome, Option.getD_some]
  · have hnone : (syncMappedHostToDeviceForLaunch hosts deviceDirty true params flush).2.rpcParams
        i = none := by
      refine Option.eq_none_iff_forall_ne_some.mpr fun v hv ↦ hfirst ?_
      obtain ⟨m', hm', hfirst', arg', harg', hcov', -⟩ := (syncMapped_rpcParams ..).mp hv
      rw [← Option.some.inj (harg.symm.trans harg')] at hcov'
      rwa [eq_of_covers hosts.snapshots_apart hm hm' hcov hcov']
    rw [LaunchSync.sent, hnone, Option.getD_none]

/-- **Launch arguments.** Every argument is synced if and only if the host pointers come first, each
in its allocation. -/
theorem argumentsSynced_iff :
    ArgumentsSynced hosts params
      (syncMappedHostToDeviceForLaunch hosts deviceDirty true params flush).2 ↔
      HostPointersFirst hosts params := by
  classical
  constructor
  · intro hsynced m hm hmoves i arg harg hsize hcov
    by_contra hfirst
    have hsent := hsynced.translated i arg harg hsize m hm hcov
    rw [syncMapped_sent hosts deviceDirty params flush harg hm hcov, if_neg hfirst] at hsent
    exact hmoves (Nat.add_right_cancel (hsent.symm.trans (Nat.add_sub_cancel' hcov.1).symm))
  · intro hfirst
    constructor
    · intro i arg harg hsize m hm hcov
      rw [syncMapped_sent hosts deviceDirty params flush harg hm hcov]
      split_ifs with h
      · rfl
      · have hsame : m.devicePtr = m.host := by
          by_contra hmoves
          exact h (hfirst m hm hmoves i arg harg hsize hcov)
        exact (congrArg (· + (arg.word - m.host)) hsame).trans (Nat.add_sub_cancel' hcov.1) |>.symm
    · intro i arg harg hnot
      refine Option.eq_none_iff_forall_ne_some.mpr fun v hv ↦ ?_
      obtain ⟨m, hm, ⟨⟨a, ha, hinto⟩, -⟩, arg', harg', hcov, -⟩ := (syncMapped_rpcParams ..).mp hv
      obtain rfl := Option.some.inj (harg.symm.trans harg')
      obtain rfl := Option.some.inj (harg.symm.trans ha)
      exact hnot hinto.1 m hm hcov
    · intro m hm hinto
      exact (syncMapped_deviceDirty ..).mpr (Or.inr ⟨m, hm, rfl, hinto⟩)

end Call

/-- An allocation of one page at 4096 whose device pointers begin at 65536. -/
def pageMappedAt4096 : MappedHosts where
  table := { entries := [(4096, { size := 4096, storageSize := 4096, devicePtr := 65536 })]
             sorted := List.pairwise_singleton _ _ }
  clientToServerOnly _ := false
  apart := List.pairwise_singleton _ _
  host_lt := by decide
  device_lt := by decide
  copiedBack _ := rfl

/-- Two arguments in one allocation: the second is sent as an address of the client. -/
theorem secondArgument_unsynced : ¬ArgumentsSynced pageMappedAt4096 [⟨8, 4096⟩, ⟨8, 4104⟩]
    (syncMappedHostToDeviceForLaunch pageMappedAt4096 (fun _ ↦ false) true
      [⟨8, 4096⟩, ⟨8, 4104⟩] .success).2 := by
  intro h
  have hsent := h.translated 1 ⟨8, 4104⟩ rfl rfl ⟨4096, 4096, 65536, false⟩ (by decide) (by decide)
  exact absurd hsent (by decide)

end Lupine
