import Lupine.Cuda
import Lupine.Foundation.LittleEndian
import Lupine.Foundation.Machine
import Lupine.Foundation.PointerTable
import Lupine.Foundation.Spans

/-!
# The caches of pointer attributes

The client keeps the server's answers to queries of pointer attributes in two caches. Answers to
queries of one attribute are kept for every pointer, answers to queries of a list of attributes for
managed allocations only and then for the whole allocation. Some of the calls that change what the
server would answer clear both caches.

## Which calls clear

Freeing a managed or a pinned allocation, setting an attribute, and freeing stream-ordered or
reserved memory clear them. `cuMemFree_v2` of device memory does not: an answer about memory that is
freed so stays, and is the answer about whatever the driver puts there next.

The driver is a parameter: what it answers about a pointer depends on the region of its memory that
the pointer lies in. Pointers of the local driver, and lists about pointers that no table knows, are
answered without a cache and left out, as are callers that pass no buffer. A call whose reply is
lost ends the connection and with it the server, and is left out too.

## What is in the caches

An answer about a single attribute is kept by pointer, and it is valid if it is the answer of some
region of the server's memory that has the pointer. An answer about a list is kept by allocation; it
is valid if it is the answer about some pointer into the region behind it. Inside a region only the
aliases of the pointer depend on the offset, and the client writes those itself, so a hit gives for
any pointer of the allocation what the server would.
-/

namespace Lupine

open Foundation

/-! ## Attributes -/

inductive CUpointerAttribute where
  | context
  | memoryType
  | devicePointer
  | hostPointer
  | p2pTokens
  | syncMemops
  | bufferId
  | isManaged
  | deviceOrdinal
  | isLegacyCudaIpcCapable
  | rangeStartAddr
  | rangeSize
  | mapped
  | allowedHandleTypes
  | isGpuDirectRdmaCapable
  | accessFlags
  | mempoolHandle
  | mappingSize
  | mappingBaseAddr
  | memoryBlockId
  | isHwDecompressCapable
  | other (code : ℕ)
  deriving DecidableEq, Repr

/-- `lupine_pointer_attribute_size`. -/
def pointerAttributeSize : CUpointerAttribute → Option ℕ
  | .context | .devicePointer | .hostPointer | .bufferId | .memoryBlockId | .rangeStartAddr
  | .mappingBaseAddr | .rangeSize | .mappingSize | .mempoolHandle => some 8
  | .p2pTokens => some 16
  | .memoryType | .syncMemops | .isManaged | .deviceOrdinal | .isLegacyCudaIpcCapable | .mapped
  | .accessFlags | .isGpuDirectRdmaCapable | .isHwDecompressCapable | .allowedHandleTypes => some 4
  | .other _ => none

/-! ## The server

The driver answers by region. It has defaults for a list of attributes of a pointer that lies in no
region, and an error for a single one. -/

/-- A region of the memory of the server: an allocation, a mapping or a pinned mirror. What else the
driver knows of it is its properties. -/
structure ServerRegion where
  base : CUdeviceptr
  size : ℕ
  device : Bool
  properties : ℕ
  deriving DecidableEq, Repr

def ServerRegion.span (region : ServerRegion) : Span := ⟨region.base, region.size⟩

/-- The driver of the server, as `cuPointerGetAttribute` and `cuPointerGetAttributes` show it. A
pointer in no region has no single attributes; a list of attributes has defaults there. Inside a
region only the pointer aliases depend on the offset, the device alias of device memory is the
pointer itself, and the values have their sizes. -/
structure PointerDriver where
  getAttribute : ServerRegion → CUdeviceptr → CUpointerAttribute → CUresult × List UInt8
  getAttributes : Option ServerRegion → CUdeviceptr → List CUpointerAttribute →
    CUresult × List (List UInt8)
  sizes : ∀ region ptr attributes, (getAttributes region ptr attributes).1 = .success →
    (getAttributes region ptr attributes).2.map List.length =
      attributes.map fun attr ↦ (pointerAttributeSize attr).getD 0
  offset_result : ∀ region ptr ptr' attributes, region.span.Covers ptr → region.span.Covers ptr' →
    (getAttributes (some region) ptr attributes).1 = (getAttributes (some region) ptr' attributes).1
  offset_value : ∀ region ptr ptr' attributes (i : ℕ) attr, region.span.Covers ptr →
    region.span.Covers ptr' → attributes[i]? = some attr → attr ≠ .hostPointer →
      attr ≠ .devicePointer →
        (getAttributes (some region) ptr attributes).2[i]? =
          (getAttributes (some region) ptr' attributes).2[i]?
  device_alias : ∀ region ptr attributes (i : ℕ), region.device = true → region.span.Covers ptr →
    (getAttributes (some region) ptr attributes).1 = .success →
      attributes[i]? = some .devicePointer →
        (getAttributes (some region) ptr attributes).2[i]? = some (leBytes 8 ptr)

/-! ## The client

A host allocation has the address that the server is asked about. A pointer into it is translated
before the query, and the aliases among the answers are translated back. -/

/-- `lupine_host_allocation`, with the address that the server is asked about and the base of the
memory behind it: `device_ptr` and `device_alloc_base` of a managed allocation, `server_host_ptr` of
a pinned one. -/
structure HostAllocation where
  base : HostPtr
  size : ℕ
  managed : Bool
  serverPtr : CUdeviceptr
  serverBase : CUdeviceptr
  deriving DecidableEq, Repr

def HostAllocation.span (allocation : HostAllocation) : Span := ⟨allocation.base, allocation.size⟩

/-- The address at the server behind an address of the allocation. -/
def HostAllocation.translate (allocation : HostAllocation) (ptr : CUdeviceptr) : CUdeviceptr :=
  devAdd allocation.serverPtr (ptr - allocation.base)

/-- The registered host allocations, the two caches, and the memory of the server. -/
structure AttributeState where
  allocations : List HostAllocation := []
  single : AList (fun _ : CUdeviceptr × CUpointerAttribute ↦ List UInt8) := ∅
  lists : AList (fun _ : CUdeviceptr × List CUpointerAttribute ↦ List (List UInt8)) := ∅
  regions : List ServerRegion := []

namespace AttributeState

variable (driver : PointerDriver) (st : AttributeState)

def regionAt (ptr : CUdeviceptr) : Option ServerRegion :=
  st.regions.find? fun region ↦ region.span.Covers ptr

/-- `lupine_find_host_allocation_locked`. -/
def findHostAllocation (ptr : CUdeviceptr) : Option HostAllocation :=
  st.allocations.find? fun allocation ↦ allocation.span.Covers ptr

/-- The server's `cuPointerGetAttribute`. -/
def serverGetAttribute (attr : CUpointerAttribute) (ptr : CUdeviceptr) :
    CUresult × List UInt8 :=
  match st.regionAt ptr with
  | some region => driver.getAttribute region ptr attr
  | none => (.errorInvalidValue, [])

/-- The server's `cuPointerGetAttributes`. -/
def serverGetAttributes (attributes : List CUpointerAttribute) (ptr : CUdeviceptr) :
    CUresult × List (List UInt8) :=
  driver.getAttributes (st.regionAt ptr) ptr attributes

/-- `lupine_pointer_attribute_cache_clear`. -/
def pointerAttributeCacheClear : AttributeState := { st with single := ∅, lists := ∅ }

/-- `lupine_pointer_attribute_cache_lookup_single`. -/
def lookupSingle (ptr : CUdeviceptr) (attr : CUpointerAttribute) (valueSize : ℕ) :
    Option (List UInt8) :=
  (st.single.lookup (ptr, attr)).filter fun value ↦ value.length = valueSize

/-- What is written over a value of the server: the client's alias of the pointer, and that memory
with a managed alias is managed. -/
def aliasValue (managed aliased : Bool) (ptr : CUdeviceptr) (attr : CUpointerAttribute)
    (value : List UInt8) : List UInt8 :=
  if aliased = true ∧ attr = .hostPointer then leBytes 8 ptr
  else if managed = true ∧ attr = .isManaged then leBytes 4 1
  else value

/-- The pointer that the server is asked about, and whether it is that of a managed allocation. -/
def queryPtr (ptr : CUdeviceptr) : CUdeviceptr × Bool × Bool :=
  match st.findHostAllocation ptr with
  | some allocation => (allocation.translate ptr, allocation.managed, true)
  | none => (ptr, false, false)

/-- `cuPointerGetAttribute`: its result, what it writes, and the state it leaves. -/
def pointerGetAttribute (attr : CUpointerAttribute) (ptr : CUdeviceptr) :
    (CUresult × Option (List UInt8)) × AttributeState :=
  match pointerAttributeSize attr with
  | none => ((.errorInvalidValue, none), st)
  | some valueSize =>
    let (queryPtr, managed, aliased) := st.queryPtr ptr
    match st.lookupSingle queryPtr attr valueSize with
    | some value => ((.success, some (aliasValue managed aliased ptr attr value)), st)
    | none =>
      let (result, value) := st.serverGetAttribute driver attr queryPtr
      if result = .success then
        ((.success, some (aliasValue managed aliased ptr attr value)),
          { st with single := st.single.insert (queryPtr, attr) value })
      else ((result, none), st)

/-- What a hit in the cache of lists gives for one attribute. -/
def cachedValue (ptr queryPtr : CUdeviceptr) (attr : CUpointerAttribute)
    (value : List UInt8) : List UInt8 :=
  if attr = .hostPointer then leBytes 8 ptr
  else if attr = .devicePointer then leBytes 8 queryPtr
  else if attr = .isManaged then leBytes 4 1
  else value

/-- `lupine_managed_host_alias_base`. -/
def managedHostAliasBase (ptr : CUdeviceptr) : Option CUdeviceptr :=
  (st.findHostAllocation ptr).bind fun allocation ↦
    if allocation.managed then some allocation.serverPtr else none

/-- `cuPointerGetAttributes`: its result, what it writes, and the state it leaves. -/
def pointerGetAttributes (attributes : List CUpointerAttribute) (ptr : CUdeviceptr) :
    (CUresult × Option (List (List UInt8))) × AttributeState :=
  match attributes.mapM pointerAttributeSize with
  | none => ((.errorInvalidValue, none), st)
  | some valueSizes =>
    let (queryPtr, managed, aliased) := st.queryPtr ptr
    let key := (st.managedHostAliasBase ptr).map fun base ↦ (base, attributes)
    match key.bind st.lists.lookup with
    | some values =>
      if values.map List.length = valueSizes then
        ((.success, some (List.zipWith (cachedValue ptr queryPtr) attributes values)), st)
      else ((.errorInvalidValue, none), st)
    | none =>
      let (result, values) := st.serverGetAttributes driver attributes queryPtr
      if result ≠ .success then ((result, none), st)
      else if values.map List.length = valueSizes then
        ((.success, some (List.zipWith (aliasValue managed aliased ptr) attributes values)),
          { st with
            lists := match key with
              | some key => st.lists.insert key values
              | none => st.lists })
      else ((.errorInvalidValue, none), st)

/-- The address that `cuPointerSetAttribute` names to the server. -/
def setTarget (ptr : CUdeviceptr) : CUdeviceptr :=
  match st.findHostAllocation ptr with
  | some allocation => if allocation.managed then allocation.translate ptr else ptr
  | none => ptr

end AttributeState

/-! ## Runs

Memory comes and goes by calls that clear the caches and by those that do not. The condition is on
the latter: the memory they free has no answer in a cache. -/

/-- What happens to the caches and to the memory of the server. -/
inductive AttributeStep where
  /-- `cuMemAlloc_v2` and other calls that allocate device memory. -/
  | memAlloc (region : ServerRegion)
  /-- `cuMemFree_v2` of device memory, and other calls that free memory and clear nothing. -/
  | memFree (region : ServerRegion)
  /-- A call that changes the memory and clears the caches: `cuMemFreeAsync`, `cuMemAddressFree`,
  `cuMemMap`, `cuMemUnmap`, `cuMemSetAccess`, `cuCtxDestroy_v2`. -/
  | clearingCall (regions : List ServerRegion)
  /-- `cuMemAllocManaged`, `cuMemHostAlloc`, `cuMemHostRegister_v2`. -/
  | hostAlloc (allocation : HostAllocation) (region : ServerRegion)
  /-- `cuMemFree_v2` of a managed allocation, `cuMemFreeHost`, `cuMemHostUnregister`. -/
  | hostFree (allocation : HostAllocation) (drained freed : Bool)
  /-- `cuPointerSetAttribute`, after which the region has other properties. -/
  | setAttribute (ptr : CUdeviceptr) (properties : ℕ)
  | getAttribute (attr : CUpointerAttribute) (ptr : CUdeviceptr)
  | getAttributes (attrs : List CUpointerAttribute) (ptr : CUdeviceptr)

/-- A region is not empty, and ends below the end of the address space. -/
def ServerRegion.Proper (region : ServerRegion) : Prop :=
  0 < region.span.size ∧ region.span.base + region.span.size ≤ 2 ^ 64

instance (region : ServerRegion) : Decidable region.Proper := inferInstanceAs (Decidable (_ ∧ _))

/-- Memory that the driver may hand out. -/
def FreshRegion (regions : List ServerRegion) (region : ServerRegion) : Prop :=
  region.Proper ∧ ∀ r ∈ regions, region.span.Apart r.span

/-- The regions of a driver do not overlap. -/
def ApartRegions (regions : List ServerRegion) : Prop :=
  (regions.Pairwise fun r r' ↦ r.span.Apart r'.span) ∧ ∀ r ∈ regions, r.Proper

/-- The region is the memory behind the allocation. -/
def HostAllocation.BackedBy (allocation : HostAllocation) (region : ServerRegion) : Prop :=
  region.base = allocation.serverBase ∧ (allocation.managed = true → region.device = true) ∧
    0 < allocation.span.size ∧ (⟨allocation.serverPtr, allocation.size⟩ : Span).Within region.span

instance (regions : List ServerRegion) (region : ServerRegion) :
    Decidable (FreshRegion regions region) := inferInstanceAs (Decidable (_ ∧ _))

instance (regions : List ServerRegion) : Decidable (ApartRegions regions) :=
  inferInstanceAs (Decidable (_ ∧ _))

instance (allocation : HostAllocation) (region : ServerRegion) :
    Decidable (allocation.BackedBy region) := inferInstanceAs (Decidable (_ ∧ _))

variable (driver : PointerDriver)

def AttributeState.step (st : AttributeState) : AttributeStep → Option AttributeState
  | .memAlloc region =>
    if FreshRegion st.regions region then some { st with regions := region :: st.regions } else none
  | .memFree region =>
    if region ∈ st.regions then some { st with regions := st.regions.filter (· ≠ region) } else none
  | .clearingCall regions =>
    if ApartRegions regions then some { st.pointerAttributeCacheClear with regions := regions }
    else none
  | .hostAlloc allocation region =>
    if FreshRegion st.regions region ∧ allocation.BackedBy region ∧
        ∀ other ∈ st.allocations, allocation.span.Apart other.span then
      some { st with allocations := allocation :: st.allocations, regions := region :: st.regions }
    else none
  | .hostFree allocation drained freed =>
    if allocation ∈ st.allocations then
      let st := st.pointerAttributeCacheClear
      if drained then
        some { st with
          allocations := st.allocations.filter (· ≠ allocation)
          regions :=
            if freed then st.regions.filter fun region ↦ region.base ≠ allocation.serverBase
            else st.regions }
      else some st
    else none
  | .setAttribute ptr properties =>
    match st.regionAt (st.setTarget ptr) with
    | some region =>
      some { st.pointerAttributeCacheClear with
        regions := st.regions.map fun r ↦
          if r = region then { r with properties := properties } else r }
    | none => some st
  | .getAttribute attr ptr => some (st.pointerGetAttribute driver attr ptr).2
  | .getAttributes attrs ptr => some (st.pointerGetAttributes driver attrs ptr).2

def attributeMachine : Machine AttributeState AttributeStep := ⟨AttributeState.step driver⟩

/-- Memory with a cached answer is not freed by a call that clears nothing, and the memory behind a
managed or pinned allocation is freed with the allocation only. -/
def AttributeCond (st : AttributeState) : AttributeStep → Prop
  | .memFree region =>
    (∀ key ∈ st.single.keys, ¬region.span.Covers key.1) ∧
      (∀ key ∈ st.lists.keys, ¬region.span.Covers key.1) ∧
        ∀ allocation ∈ st.allocations, region.base ≠ allocation.serverBase
  | .clearingCall regions =>
    ∀ allocation ∈ st.allocations, ∀ region ∈ st.regions, region.base = allocation.serverBase →
      region ∈ regions
  | _ => True

instance (st : AttributeState) (step : AttributeStep) : Decidable (AttributeCond st step) := by
  cases step <;> unfold AttributeCond <;> infer_instance

/-! ## The invariant

Regions do not overlap, so a pointer lies in one at most, and new memory has another base than all
there is. Each host allocation has a region of its own. -/

/-- Every answer in the cache of single attributes is that of a region of the server. -/
def SingleValid (regions : List ServerRegion)
    (single : AList (fun _ : CUdeviceptr × CUpointerAttribute ↦ List UInt8)) : Prop :=
  ∀ ptr attr value, single.lookup (ptr, attr) = some value → ∃ region ∈ regions,
    region.span.Covers ptr ∧ driver.getAttribute region ptr attr = (.success, value)

/-- Every cached list is the answer of its allocation's region, for some pointer into it. -/
def ListsValid (regions : List ServerRegion)
    (lists : AList (fun _ : CUdeviceptr × List CUpointerAttribute ↦ List (List UInt8))) : Prop :=
  ∀ base attrs values, lists.lookup (base, attrs) = some values → ∃ region ∈ regions,
    region.span.Covers base ∧ ∃ ptr, region.span.Covers ptr ∧
      driver.getAttributes (some region) ptr attrs = (.success, values)

/-- The memory of the server is in order, each host allocation has a region of its own, and the
caches hold what the server would answer. -/
structure AttributeInv (st : AttributeState) : Prop where
  apart : ApartRegions st.regions
  backed : ∀ allocation ∈ st.allocations, ∃ region ∈ st.regions, allocation.BackedBy region
  bases : ∀ allocation ∈ st.allocations, ∀ other ∈ st.allocations,
    allocation.serverBase = other.serverBase → allocation = other
  single : SingleValid driver st.regions st.single
  lists : ListsValid driver st.regions st.lists

variable {driver} {st st' : AttributeState} {region region' : ServerRegion}
  {regions : List ServerRegion} {allocation : HostAllocation} {ptr : CUdeviceptr}

theorem ApartRegions.eq_of_covers (h : ApartRegions regions) (hregion : region ∈ regions)
    (hregion' : region' ∈ regions) (hptr : region.span.Covers ptr)
    (hptr' : region'.span.Covers ptr) : region = region' :=
  Foundation.eq_of_covers h.1 hregion hregion' hptr hptr'

theorem ApartRegions.regionAt_eq (h : ApartRegions st.regions) (hregion : region ∈ st.regions)
    (hptr : region.span.Covers ptr) : st.regionAt ptr = some region :=
  (find?_covers_eq_some h.1).mpr ⟨hregion, hptr⟩

theorem FreshRegion.apart (h : FreshRegion regions region) (hregions : ApartRegions regions) :
    ApartRegions (region :: regions) :=
  ⟨List.pairwise_cons.mpr ⟨h.2, hregions.1⟩, List.forall_mem_cons.mpr ⟨h.1, hregions.2⟩⟩

theorem ApartRegions.filter (h : ApartRegions regions) (p : ServerRegion → Bool) :
    ApartRegions (regions.filter p) :=
  ⟨h.1.filter p, fun r hr ↦ h.2 r (List.mem_filter.mp hr).1⟩

theorem FreshRegion.base_ne (h : FreshRegion regions region) (hregions : ApartRegions regions)
    (hregion' : region' ∈ regions) : region'.base ≠ region.base := by
  intro hbase
  apply (h.2 region' hregion').not_covers (Span.covers_base h.1.1)
  have hcovers := Span.covers_base (hregions.2 region' hregion').1
  rwa [show region'.span.base = region.span.base from hbase] at hcovers

/-- A pointer into an allocation is translated to the region behind it. -/
theorem HostAllocation.BackedBy.translate (h : allocation.BackedBy region) (hproper : region.Proper)
    (hptr : allocation.span.Covers ptr) : region.span.Covers (allocation.translate ptr) := by
  have hcovers := h.2.2.2.covers (hptr.move allocation.serverPtr)
  have hmod : allocation.translate ptr = allocation.serverPtr + (ptr - allocation.base) :=
    Nat.mod_eq_of_lt (Nat.lt_of_lt_of_le hcovers.2 hproper.2)
  rwa [hmod]

theorem HostAllocation.BackedBy.serverPtr (h : allocation.BackedBy region) :
    region.span.Covers allocation.serverPtr :=
  h.2.2.2.covers (Span.covers_base h.2.2.1)

/-! ## Steps keep the invariant

A change of the memory that clears the caches leaves nothing to show. The region of an attribute
that is set stays where it is, and a query puts the server's answer into one of the caches. -/

theorem SingleValid.mono {single} (h : SingleValid driver regions single)
    {regions' : List ServerRegion}
    (hkeep : ∀ ptr attr value, single.lookup (ptr, attr) = some value → ∀ region ∈ regions,
      region.span.Covers ptr → region ∈ regions') :
    SingleValid driver regions' single := by
  intro ptr attr value hlookup
  obtain ⟨region, hregion, hptr, hanswer⟩ := h ptr attr value hlookup
  exact ⟨region, hkeep ptr attr value hlookup region hregion hptr, hptr, hanswer⟩

theorem ListsValid.mono {lists} (h : ListsValid driver regions lists)
    {regions' : List ServerRegion} (hkeep : ∀ base attrs values,
      lists.lookup (base, attrs) = some values →
        ∀ region ∈ regions, region.span.Covers base → region ∈ regions') :
    ListsValid driver regions' lists := by
  intro base attrs values hlookup
  obtain ⟨region, hregion, hbase, hanswer⟩ := h base attrs values hlookup
  exact ⟨region, hkeep base attrs values hlookup region hregion hbase, hbase, hanswer⟩

theorem singleValid_empty : SingleValid driver regions ∅ := fun _ _ _ h ↦ nomatch h

theorem listsValid_empty : ListsValid driver regions ∅ := fun _ _ _ h ↦ nomatch h

namespace AttributeInv

theorem init : AttributeInv driver {} where
  apart := ⟨List.Pairwise.nil, fun _ h ↦ nomatch h⟩
  backed _ h := nomatch h
  bases _ h := nomatch h
  single := singleValid_empty
  lists := listsValid_empty

variable (h : AttributeInv driver st)

include h

theorem memAlloc (hfresh : FreshRegion st.regions region) :
    AttributeInv driver { st with regions := region :: st.regions } where
  apart := hfresh.apart h.apart
  backed a ha := by
    obtain ⟨r, hr, hbacked⟩ := h.backed a ha
    exact ⟨r, List.mem_cons_of_mem _ hr, hbacked⟩
  bases := h.bases
  single := h.single.mono fun _ _ _ _ _ hr _ ↦ List.mem_cons_of_mem _ hr
  lists := h.lists.mono fun _ _ _ _ _ hr _ ↦ List.mem_cons_of_mem _ hr

theorem memFree (hcond : AttributeCond st (.memFree region)) :
    AttributeInv driver { st with regions := st.regions.filter (· ≠ region) } where
  apart := h.apart.filter _
  backed a ha := by
    obtain ⟨r, hr, hbacked⟩ := h.backed a ha
    refine ⟨r, List.mem_filter.mpr ⟨hr, decide_eq_true ?_⟩, hbacked⟩
    rintro rfl
    exact hcond.2.2 a ha hbacked.1
  bases := h.bases
  single := by
    apply h.single.mono
    intro ptr attr value hlookup r hr hptr
    refine List.mem_filter.mpr ⟨hr, decide_eq_true ?_⟩
    rintro rfl
    exact hcond.1 _ (AList.lookup_isSome.mp (Option.isSome_of_eq_some hlookup)) hptr
  lists := by
    apply h.lists.mono
    intro base attrs values hlookup r hr hbase
    refine List.mem_filter.mpr ⟨hr, decide_eq_true ?_⟩
    rintro rfl
    exact hcond.2.1 _ (AList.lookup_isSome.mp (Option.isSome_of_eq_some hlookup)) hbase

theorem clearingCall (hapart : ApartRegions regions)
    (hbacked : ∀ a ∈ st.allocations, ∃ r ∈ regions, a.BackedBy r) :
    AttributeInv driver { st.pointerAttributeCacheClear with regions := regions } where
  apart := hapart
  backed := hbacked
  bases := h.bases
  single := singleValid_empty
  lists := listsValid_empty

theorem hostAlloc (hfresh : FreshRegion st.regions region) (hbacked : allocation.BackedBy region) :
    AttributeInv driver { st with
      allocations := allocation :: st.allocations, regions := region :: st.regions } where
  apart := hfresh.apart h.apart
  backed := by
    rintro a ha
    rcases List.mem_cons.mp ha with rfl | ha
    · exact ⟨region, List.mem_cons_self, hbacked⟩
    · obtain ⟨r, hr, hbacked⟩ := h.backed a ha
      exact ⟨r, List.mem_cons_of_mem _ hr, hbacked⟩
  bases := by
    have hnew : ∀ a ∈ st.allocations, a.serverBase ≠ allocation.serverBase := by
      intro a ha hbase
      obtain ⟨r, hr, hbackedr⟩ := h.backed a ha
      exact hfresh.base_ne h.apart hr (hbackedr.1.trans (hbase.trans hbacked.1.symm))
    intro a ha b hb hbase
    rcases List.mem_cons.mp ha with rfl | ha'
    · rcases List.mem_cons.mp hb with rfl | hb'
      · rfl
      · exact absurd hbase.symm (hnew b hb')
    · rcases List.mem_cons.mp hb with rfl | hb'
      · exact absurd hbase (hnew a ha')
      · exact h.bases a ha' b hb' hbase
  single := h.single.mono fun _ _ _ _ _ hr _ ↦ List.mem_cons_of_mem _ hr
  lists := h.lists.mono fun _ _ _ _ _ hr _ ↦ List.mem_cons_of_mem _ hr

theorem hostFree (hmem : allocation ∈ st.allocations) (freed : Bool) :
    AttributeInv driver { st.pointerAttributeCacheClear with
      allocations := st.allocations.filter (· ≠ allocation)
      regions :=
        if freed then st.regions.filter fun region ↦ region.base ≠ allocation.serverBase
        else st.regions } where
  apart := by
    split_ifs
    · exact h.apart.filter _
    · exact h.apart
  backed := by
    intro a ha
    obtain ⟨ha, hne⟩ := List.mem_filter.mp ha
    obtain ⟨r, hr, hbacked⟩ := h.backed a ha
    refine ⟨r, ?_, hbacked⟩
    split_ifs
    · refine List.mem_filter.mpr ⟨hr, decide_eq_true ?_⟩
      intro hbase
      exact of_decide_eq_true hne (h.bases a ha allocation hmem (hbacked.1.symm.trans hbase))
    · exact hr
  bases a ha b hb := h.bases a (List.mem_filter.mp ha).1 b (List.mem_filter.mp hb).1
  single := singleValid_empty
  lists := listsValid_empty

theorem setAttribute (region : ServerRegion) (properties : ℕ) :
    AttributeInv driver { st.pointerAttributeCacheClear with
      regions := st.regions.map fun r ↦
        if r = region then { r with properties := properties } else r } := by
  have hspan : ∀ r : ServerRegion,
      (if r = region then { r with properties := properties } else r).span = r.span := by
    intro r
    split_ifs <;> rfl
  apply h.clearingCall
  · constructor
    · rw [List.pairwise_map]
      simpa only [hspan] using h.apart.1
    · rw [List.forall_mem_map]
      intro r hr
      simpa only [ServerRegion.Proper, hspan] using h.apart.2 r hr
  · intro a ha
    obtain ⟨r, hr, hbacked⟩ := h.backed a ha
    refine ⟨_, List.mem_map_of_mem hr, ?_⟩
    split_ifs
    · exact hbacked
    · exact hbacked

theorem insertSingle {attr : CUpointerAttribute} {value : List UInt8}
    (hanswer : st.serverGetAttribute driver attr ptr = (.success, value)) :
    AttributeInv driver { st with single := st.single.insert (ptr, attr) value } where
  apart := h.apart
  backed := h.backed
  bases := h.bases
  lists := h.lists
  single := by
    intro ptr' attr' value' hlookup
    rcases lookup_insert_eq_some.mp hlookup with ⟨hkey, rfl⟩ | ⟨-, hlookup⟩
    · obtain ⟨rfl, rfl⟩ := Prod.mk.inj hkey
      rw [AttributeState.serverGetAttribute] at hanswer
      split at hanswer
      · rename_i region hregion
        obtain ⟨hmem, hptr⟩ := (find?_covers_eq_some h.apart.1).mp hregion
        exact ⟨region, hmem, hptr, hanswer⟩
      · exact nomatch congrArg Prod.fst hanswer
    · exact h.single ptr' attr' value' hlookup

/-- The region behind a managed pointer is the one its allocation's answers are kept for. -/
theorem managed {base : CUdeviceptr} (hbase : st.managedHostAliasBase ptr = some base) :
    ∃ region ∈ st.regions, region.device = true ∧ region.span.Covers base ∧
      region.span.Covers (st.queryPtr ptr).1 ∧ (st.queryPtr ptr).2 = (true, true) := by
  obtain ⟨allocation, hfind, hmanaged⟩ := Option.bind_eq_some_iff.mp hbase
  split_ifs at hmanaged with hflag
  obtain rfl := Option.some.inj hmanaged
  have hmem : allocation ∈ st.allocations := List.mem_of_find?_eq_some hfind
  have hptr : allocation.span.Covers ptr :=
    of_decide_eq_true
      (List.find?_some (p := fun a : HostAllocation ↦ decide (a.span.Covers ptr)) hfind)
  obtain ⟨region, hregion, hbacked⟩ := h.backed allocation hmem
  refine ⟨region, hregion, hbacked.2.1 hflag, hbacked.serverPtr, ?_, ?_⟩
  · rw [AttributeState.queryPtr, hfind]
    exact hbacked.translate (h.apart.2 region hregion) hptr
  · rw [AttributeState.queryPtr, hfind]
    exact congrArg (·, true) hflag

theorem insertList {attrs : List CUpointerAttribute} {values : List (List UInt8)}
    {base : CUdeviceptr} (hbase : st.managedHostAliasBase ptr = some base)
    (hanswer : st.serverGetAttributes driver attrs (st.queryPtr ptr).1 = (.success, values)) :
    AttributeInv driver { st with lists := st.lists.insert (base, attrs) values } where
  apart := h.apart
  backed := h.backed
  bases := h.bases
  single := h.single
  lists := by
    intro base' attrs' values' hlookup
    rcases lookup_insert_eq_some.mp hlookup with ⟨hkey, rfl⟩ | ⟨-, hlookup⟩
    · obtain ⟨rfl, rfl⟩ := Prod.mk.inj hkey
      obtain ⟨region, hregion, -, hcovers, hquery, -⟩ := h.managed hbase
      rw [AttributeState.serverGetAttributes, h.apart.regionAt_eq hregion hquery] at hanswer
      exact ⟨region, hregion, hcovers, _, hquery, hanswer⟩
    · exact h.lists base' attrs' values' hlookup

theorem pointerGetAttribute (attr : CUpointerAttribute) (ptr : CUdeviceptr) :
    AttributeInv driver (st.pointerGetAttribute driver attr ptr).2 := by
  rw [AttributeState.pointerGetAttribute]
  cases pointerAttributeSize attr with
  | none => exact h
  | some valueSize =>
    simp only
    cases st.lookupSingle (st.queryPtr ptr).1 attr valueSize with
    | some value => exact h
    | none =>
      simp only
      split_ifs with hresult
      · exact h.insertSingle (Prod.ext hresult rfl)
      · exact h

theorem pointerGetAttributes (attrs : List CUpointerAttribute) (ptr : CUdeviceptr) :
    AttributeInv driver (st.pointerGetAttributes driver attrs ptr).2 := by
  rw [AttributeState.pointerGetAttributes]
  cases attrs.mapM pointerAttributeSize with
  | none => exact h
  | some valueSizes =>
    simp only
    split
    · split_ifs
      · exact h
      · exact h
    · split_ifs with hresult
      · exact h
      · cases hbase : st.managedHostAliasBase ptr with
        | none => exact h
        | some base => exact h.insertList hbase (Prod.ext (not_not.mp hresult) rfl)
      · exact h

theorem step {step : AttributeStep} (hcond : AttributeCond st step)
    (hstep : st.step driver step = some st') : AttributeInv driver st' := by
  cases step with
  | memAlloc region =>
    obtain ⟨hfresh, rfl⟩ := Option.ite_some_none_eq_some.mp hstep
    exact h.memAlloc hfresh
  | memFree region =>
    obtain ⟨-, rfl⟩ := Option.ite_some_none_eq_some.mp hstep
    exact h.memFree hcond
  | clearingCall regions =>
    obtain ⟨hapart, rfl⟩ := Option.ite_some_none_eq_some.mp hstep
    apply h.clearingCall hapart
    intro a ha
    obtain ⟨r, hr, hbacked⟩ := h.backed a ha
    exact ⟨r, hcond a ha r hr hbacked.1, hbacked⟩
  | hostAlloc allocation region =>
    obtain ⟨⟨hfresh, hbacked, -⟩, rfl⟩ := Option.ite_some_none_eq_some.mp hstep
    exact h.hostAlloc hfresh hbacked
  | hostFree allocation drained freed =>
    obtain ⟨hmem, hstep⟩ := Option.ite_none_right_eq_some.mp hstep
    cases drained with
    | false =>
      obtain rfl := Option.some.inj hstep
      exact h.clearingCall h.apart h.backed
    | true =>
      obtain rfl := Option.some.inj hstep
      exact h.hostFree hmem freed
  | setAttribute ptr properties =>
    simp only [AttributeState.step] at hstep
    split at hstep
    · obtain rfl := Option.some.inj hstep
      exact h.setAttribute _ properties
    · obtain rfl := Option.some.inj hstep
      exact h
  | getAttribute attr ptr =>
    obtain rfl := Option.some.inj hstep
    exact h.pointerGetAttribute attr ptr
  | getAttributes attrs ptr =>
    obtain rfl := Option.some.inj hstep
    exact h.pointerGetAttributes attrs ptr

end AttributeInv

/-! ## Answers from the caches

A hit is compared with the server's answer value by value. The values of a list have the sizes of
their attributes, so both write the same bytes. -/

namespace AttributeInv

variable (h : AttributeInv driver st)

include h

theorem serverGetAttribute_of_lookupSingle {attr : CUpointerAttribute} {valueSize : ℕ}
    {value : List UInt8} (hlookup : st.lookupSingle ptr attr valueSize = some value) :
    st.serverGetAttribute driver attr ptr = (.success, value) := by
  obtain ⟨region, hregion, hptr, hanswer⟩ :=
    h.single ptr attr value (Option.filter_eq_some_iff.mp hlookup).1
  rw [AttributeState.serverGetAttribute, h.apart.regionAt_eq hregion hptr]
  exact hanswer

theorem pointerGetAttribute_eq (attr : CUpointerAttribute) (ptr : CUdeviceptr) :
    (st.pointerGetAttribute driver attr ptr).1 =
      (st.pointerAttributeCacheClear.pointerGetAttribute driver attr ptr).1 := by
  rw [AttributeState.pointerGetAttribute, AttributeState.pointerGetAttribute]
  cases pointerAttributeSize attr with
  | none => rfl
  | some valueSize =>
    have hempty : st.pointerAttributeCacheClear.lookupSingle (st.queryPtr ptr).1 attr valueSize =
        none := rfl
    have hquery : st.pointerAttributeCacheClear.queryPtr ptr = st.queryPtr ptr := rfl
    simp only [hquery, hempty]
    cases hlookup : st.lookupSingle (st.queryPtr ptr).1 attr valueSize with
    | some value =>
      have hanswer := h.serverGetAttribute_of_lookupSingle hlookup
      have hclear : st.pointerAttributeCacheClear.serverGetAttribute driver attr (st.queryPtr ptr).1
          = (.success, value) := hanswer
      simp only [hclear, if_true]
    | none =>
      have hclear : st.pointerAttributeCacheClear.serverGetAttribute driver attr
          (st.queryPtr ptr).1 = st.serverGetAttribute driver attr (st.queryPtr ptr).1 := rfl
      simp only [hclear]
      split_ifs <;> rfl

omit h in
theorem length_values {region : Option ServerRegion} {attrs : List CUpointerAttribute}
    {values : List (List UInt8)}
    (hvalues : driver.getAttributes region ptr attrs = (.success, values)) :
    values.map List.length = attrs.map fun attr ↦ (pointerAttributeSize attr).getD 0 := by
  have hsizes := driver.sizes region ptr attrs (congrArg Prod.fst hvalues)
  rwa [hvalues] at hsizes

omit h in
theorem exists_value {region : Option ServerRegion} {attrs : List CUpointerAttribute}
    {values : List (List UInt8)} {i : ℕ}
    (hvalues : driver.getAttributes region ptr attrs = (.success, values))
    (hlt : i < attrs.length) :
    ∃ value, values[i]? = some value := by
  have hlength := congrArg List.length (length_values hvalues)
  rw [List.length_map, List.length_map] at hlength
  exact ⟨_, List.getElem?_eq_getElem (hlength.symm ▸ hlt)⟩

omit h in
/-- What a hit in the cache of lists gives is what the server's values give: they agree up to the
pointer aliases, which the client writes itself. -/
theorem zipWith_cachedValue {ptr' query : CUdeviceptr}
    {attrs : List CUpointerAttribute} {values values' : List (List UInt8)}
    (hdevice : region.device = true) (hptr' : region.span.Covers ptr')
    (hquery : region.span.Covers query)
    (hvalues : driver.getAttributes (some region) ptr' attrs = (.success, values))
    (hvalues' : driver.getAttributes (some region) query attrs = (.success, values')) :
    List.zipWith (AttributeState.cachedValue ptr query) attrs values =
      List.zipWith (AttributeState.aliasValue true true ptr) attrs values' := by
  apply List.ext_getElem?
  intro i
  rw [List.getElem?_zipWith, List.getElem?_zipWith]
  cases hattr : attrs[i]? with
  | none => rfl
  | some attr =>
    have hlt : i < attrs.length := (List.getElem?_eq_some_iff.mp hattr).1
    obtain ⟨v, hv⟩ := exists_value hvalues hlt
    obtain ⟨v', hv'⟩ := exists_value hvalues' hlt
    rw [hv, hv']
    apply congrArg some
    rw [AttributeState.cachedValue, AttributeState.aliasValue]
    by_cases hhost : attr = .hostPointer
    · rw [if_pos hhost, if_pos ⟨rfl, hhost⟩]
    rw [if_neg hhost, if_neg (not_and_of_not_right _ hhost)]
    by_cases hdev : attr = .devicePointer
    · have halias := driver.device_alias region query attrs i hdevice hquery
        (congrArg Prod.fst hvalues') (hattr.trans (congrArg some hdev))
      rw [hvalues', hv', Option.some_inj] at halias
      rw [if_pos hdev, if_neg (by simp [hdev]), halias]
    · have hoffset :=
        driver.offset_value region ptr' query attrs i attr hptr' hquery hattr hhost hdev
      rw [hvalues, hvalues', hv, hv', Option.some_inj] at hoffset
      rw [if_neg hdev, hoffset]
      simp only [true_and]

theorem pointerGetAttributes_eq (attrs : List CUpointerAttribute) (ptr : CUdeviceptr) :
    (st.pointerGetAttributes driver attrs ptr).1 =
      (st.pointerAttributeCacheClear.pointerGetAttributes driver attrs ptr).1 := by
  rw [AttributeState.pointerGetAttributes, AttributeState.pointerGetAttributes]
  cases attrs.mapM pointerAttributeSize with
  | none => rfl
  | some valueSizes =>
    have hquery : st.pointerAttributeCacheClear.queryPtr ptr = st.queryPtr ptr := rfl
    have hserver : st.pointerAttributeCacheClear.serverGetAttributes driver attrs
        (st.queryPtr ptr).1 = st.serverGetAttributes driver attrs (st.queryPtr ptr).1 := rfl
    have hmiss : ((st.pointerAttributeCacheClear.managedHostAliasBase ptr).map fun base ↦
        (base, attrs)).bind st.pointerAttributeCacheClear.lists.lookup = none := by
      rw [Option.bind_eq_none_iff]
      exact fun _ _ ↦ rfl
    simp only [hquery, hmiss, hserver]
    cases hkey : st.managedHostAliasBase ptr with
    | none =>
      simp only [Option.map_none, Option.bind_none]
      split_ifs <;> rfl
    | some base =>
      -- the pointer lies in a region that is known to be a managed alias
      obtain ⟨region, hregion, hdevice, hbase, hcovers, hflags⟩ := h.managed hkey
      simp only [Option.map_some, Option.bind_some]
      cases hlookup : st.lists.lookup (base, attrs) with
      | none =>
        simp only
        split_ifs <;> rfl
      | some values =>
        -- the list was stored for another pointer into the same region
        obtain ⟨region', hregion', hbase', ptr', hptr', hvalues⟩ :=
          h.lists base attrs values hlookup
        obtain rfl := h.apart.eq_of_covers hregion' hregion hbase' hbase
        -- the driver answers for both pointers alike, but for the offset between them
        have hresult := driver.offset_result region' ptr' (st.queryPtr ptr).1 attrs hptr' hcovers
        have hanswer : st.serverGetAttributes driver attrs (st.queryPtr ptr).1 =
            driver.getAttributes (some region') (st.queryPtr ptr).1 attrs := by
          rw [AttributeState.serverGetAttributes, h.apart.regionAt_eq hregion hcovers]
        have hvalues' : driver.getAttributes (some region') (st.queryPtr ptr).1 attrs =
            (.success, (driver.getAttributes (some region') (st.queryPtr ptr).1 attrs).2) := by
          rw [hvalues] at hresult
          exact Prod.ext hresult.symm rfl
        rw [hanswer, hvalues']
        simp only [ne_eq, not_true_eq_false, if_false, length_values hvalues,
          length_values hvalues', hflags]
        split_ifs
        · rw [zipWith_cachedValue hdevice hptr' hcovers hvalues hvalues']
        · rfl

end AttributeInv

/-- In a run whose steps all meet the condition the caches are valid. -/
theorem attributeInv_of_run {steps : List AttributeStep}
    (hrun : ((attributeMachine driver).restrict AttributeCond).run {} steps = some st) :
    AttributeInv driver st := by
  apply Machine.run_invariant _ _ AttributeInv.init hrun
  intro s step s' hs hstep
  obtain ⟨hcond, hstep⟩ := Machine.step_restrict.mp hstep
  exact hs.step hcond hstep

/-- **Attributes from the caches.** After a run in which memory with a cached answer is never freed
by a call that clears nothing, both queries give for every pointer what they give with the caches
cleared, that is, what the server answers then. -/
theorem pointer_attributes_eq_server (driver : PointerDriver) (steps : List AttributeStep)
    (st : AttributeState)
    (hrun : ((attributeMachine driver).restrict AttributeCond).run {} steps = some st)
    (ptr : CUdeviceptr) :
    (∀ attr, (st.pointerGetAttribute driver attr ptr).1 =
      (st.pointerAttributeCacheClear.pointerGetAttribute driver attr ptr).1) ∧
    ∀ attrs, (st.pointerGetAttributes driver attrs ptr).1 =
      (st.pointerAttributeCacheClear.pointerGetAttributes driver attrs ptr).1 :=
  have h := attributeInv_of_run hrun
  ⟨fun attr ↦ h.pointerGetAttribute_eq attr ptr, fun attrs ↦ h.pointerGetAttributes_eq attrs ptr⟩

/-! ## A driver whose attributes are the properties of the region -/

/-- The value of an attribute of a region with these properties. -/
def propertyValue (properties : ℕ) (ptr : CUdeviceptr) (attr : CUpointerAttribute) : List UInt8 :=
  if attr = .devicePointer then leBytes 8 ptr
  else leBytes ((pointerAttributeSize attr).getD 0) properties

theorem length_propertyValue (properties : ℕ) (ptr : CUdeviceptr) (attr : CUpointerAttribute) :
    (propertyValue properties ptr attr).length = (pointerAttributeSize attr).getD 0 := by
  rw [propertyValue]
  split_ifs with h
  · rw [h, length_leBytes]
    rfl
  · exact length_leBytes _ _

/-- A driver that answers every attribute with the properties. -/
def propertyDriver : PointerDriver where
  getAttribute region ptr attr := (.success, propertyValue region.properties ptr attr)
  getAttributes region ptr attrs :=
    (.success, attrs.map (propertyValue ((region.map ServerRegion.properties).getD 0) ptr))
  sizes region ptr attrs _ := by
    rw [List.map_map]
    exact List.map_congr_left fun attr _ ↦ length_propertyValue _ ptr attr
  offset_result _ _ _ _ _ _ := rfl
  offset_value region ptr ptr' attrs i attr _ _ hattr _ hdevice := by
    simp [hattr, propertyValue, hdevice]
  device_alias region ptr attrs i _ _ _ hattr := by
    simp [hattr, propertyValue]

/-- Device memory that is freed before it is queried, and a managed allocation that is queried,
freed and made again at the same address. -/
theorem pointer_attributes_eq_server_reused :
    ∃ st, ((attributeMachine propertyDriver).restrict AttributeCond).run {}
        [.memAlloc ⟨0x1000, 0x100, true, 1⟩, .memFree ⟨0x1000, 0x100, true, 1⟩,
          .hostAlloc ⟨0x70000, 0x100, true, 0x1000, 0x1000⟩ ⟨0x1000, 0x100, true, 2⟩,
          .getAttributes [.bufferId, .hostPointer] 0x70010,
          .hostFree ⟨0x70000, 0x100, true, 0x1000, 0x1000⟩ true true,
          .hostAlloc ⟨0x70000, 0x100, true, 0x1000, 0x1000⟩ ⟨0x1000, 0x100, true, 3⟩,
          .getAttributes [.bufferId, .hostPointer] 0x70010] = some st ∧
      (st.pointerGetAttributes propertyDriver [.bufferId, .hostPointer] 0x70020).1 =
        (.success, some [leBytes 8 3, leBytes 8 0x70020]) := by
  have hpossible : (((attributeMachine propertyDriver).restrict AttributeCond).run {}
      [.memAlloc ⟨0x1000, 0x100, true, 1⟩, .memFree ⟨0x1000, 0x100, true, 1⟩,
        .hostAlloc ⟨0x70000, 0x100, true, 0x1000, 0x1000⟩ ⟨0x1000, 0x100, true, 2⟩,
        .getAttributes [.bufferId, .hostPointer] 0x70010,
        .hostFree ⟨0x70000, 0x100, true, 0x1000, 0x1000⟩ true true,
        .hostAlloc ⟨0x70000, 0x100, true, 0x1000, 0x1000⟩ ⟨0x1000, 0x100, true, 3⟩,
        .getAttributes [.bufferId, .hostPointer] 0x70010]).any fun st ↦
      (st.pointerAttributeCacheClear.pointerGetAttributes propertyDriver
        [.bufferId, .hostPointer] 0x70020).1 =
          (.success, some [leBytes 8 3, leBytes 8 0x70020]) := by decide
  obtain ⟨st, hrun, hst⟩ := (Option.any_eq_true _ _).mp hpossible
  refine ⟨st, hrun, ?_⟩
  rw [(pointer_attributes_eq_server propertyDriver _ st hrun 0x70020).2]
  exact of_decide_eq_true hst

/-- **Memory freed with an answer in the cache.** Device memory is queried, freed by `cuMemFree_v2`,
and the driver hands its address out again: the next query gets the answer about the old memory. -/
theorem freed_memory_answers_from_cache :
    ∃ st, (attributeMachine propertyDriver).run {}
        [.memAlloc ⟨0x1000, 0x100, true, 1⟩, .getAttribute .bufferId 0x1000,
          .memFree ⟨0x1000, 0x100, true, 1⟩, .memAlloc ⟨0x1000, 0x100, true, 2⟩] = some st ∧
      (st.pointerGetAttribute propertyDriver .bufferId 0x1000).1 = (.success, some (leBytes 8 1)) ∧
      st.serverGetAttribute propertyDriver .bufferId 0x1000 = (.success, leBytes 8 2) ∧
      leBytes 8 1 ≠ leBytes 8 2 :=
  ⟨_, rfl, by decide, by decide, by decide⟩

end Lupine
