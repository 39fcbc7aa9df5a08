import Lupine.Cuda
import Lupine.Foundation.Machine
import Lupine.Foundation.OrderedTable
import Lupine.Foundation.Spans

/-!
# The ranges of host allocations

The client keeps a table of the host memory that CUDA knows of, by its base: memory that it has
mapped for `cuMemHostAlloc` and `cuMemAllocManaged`, memory of the local driver, and memory of the
caller that is registered. The fault handler and the copies ask the table what an address belongs
to, and protect whole pages.

## Bytes and pages

Only a registration is checked against the table. What a registration by a server tracks are the
pages that cover the caller's range; a local one tracks the range itself, and the local driver may
hand out two allocations that lie in one page. An allocation of no bytes is still found by its base.

The model leaves out what other modules are about: the routes of the device pointers, and what is
dirty. What the world answers (the local driver or the server, `mmap`, the flushes) is part of a
step.

## What keeps two entries apart

Memory that is handed out is its owner's: `mmap` gives whole pages of its own, the local driver
bytes of its own. A range of the caller may be anywhere, so it is checked. `EntriesApart` is the
statement about two entries that all three give, and that lookups and later checks rely on.
-/

open Foundation

namespace Lupine

/-! ## Pages

The arithmetic is that of 64-bit words, where rounding up can wrap. -/

/-- `lupine_page_size`, a power of two. -/
structure PageSize where
  bits : ℕ
  bits_lt : bits < 64

def PageSize.bytes (page : PageSize) : ℕ := 2 ^ page.bits

/-- `lupine_round_up`, on 64-bit words. -/
def roundUp (page : PageSize) (value : ℕ) : ℕ :=
  (value + (page.bytes - 1)) % 2 ^ 64 / page.bytes * page.bytes

/-- `lupine_covering_pages`, on 64-bit words. -/
def coveringPages (page : PageSize) (p bytesize : ℕ) : Span :=
  let pageBase := p / page.bytes * page.bytes
  let ending := roundUp page ((p + bytesize) % 2 ^ 64)
  ⟨pageBase, (ending + (2 ^ 64 - pageBase)) % 2 ^ 64⟩

/-! ## The table

An entry is found for an address by its base, or else it is the last entry below the address, if
that has it. -/

/-- `lupine_host_allocation`, as far as the table reads it. -/
structure TrackedHost where
  size : ℕ
  storageSize : ℕ
  userBase : ℕ := 0
  flags : BitVec 32 := 0
  owned : Bool := false
  ownedMmap : Bool := false
  managed : Bool := false
  localCuda : Bool := false
  retiring : Bool := false
  serverHostPtr : CUdeviceptr := 0
  devicePtr : CUdeviceptr := 0
  deviceAllocBase : CUdeviceptr := 0
  routeId : ℤ := -2
  deriving DecidableEq, Repr

/-- `lupine_host_allocation_map`. -/
abbrev HostTable := OrderedTable ℕ TrackedHost

/-- `lupine_find_host_allocation_locked`. -/
def findHostAllocationLocked (table : HostTable) (p : ℕ) : Option (ℕ × TrackedHost) :=
  match table.find? p with
  | some entry => some entry
  | none =>
    match table.prev? p with
    | some (base, allocation) =>
      if base ≤ p ∧ p < (base + allocation.size) % 2 ^ 64 then some (base, allocation) else none
    | none => none

def TrackedHost.span (allocation : TrackedHost) : ℕ :=
  let span := max allocation.size allocation.storageSize
  if span = 0 then 1 else span

def trackedPages (page : PageSize) (entry : ℕ × TrackedHost) : Span :=
  coveringPages page entry.1 entry.2.span

/-- `lupine_host_pages_registered_locked`. -/
def hostPagesRegisteredLocked (page : PageSize) (table : HostTable) (base size : ℕ) : Bool :=
  let ending := (base + size) % 2 ^ 64
  let prevReaches := match table.prev? base with
    | some prev =>
      let covered := trackedPages page prev
      decide (base < (covered.base + covered.size) % 2 ^ 64)
    | none => false
  let upperStarts := match table.upper? base with
    | some (host, _) => decide (host < ending)
    | none => false
  prevReaches || upperStarts

/-- `emplace`: the table, the entry at the key, and whether it is new. -/
def emplace (table : HostTable) (base : ℕ) (allocation : TrackedHost) :
    HostTable × TrackedHost × Bool :=
  match table.find? base with
  | some (_, old) => (table, old, false)
  | none => (table.insert base allocation, allocation, true)

/-! ## The calls

Each call is a function of the table and of what the world answers, and returns the result with the
table it leaves. An allocation that fails after it was entered is taken out again. -/

/-- `CUDA_ERROR_HOST_MEMORY_ALREADY_REGISTERED`. -/
def errorHostMemoryAlreadyRegistered : CUresult := .error 712

/-- `CUDA_ERROR_HOST_MEMORY_NOT_REGISTERED`. -/
def errorHostMemoryNotRegistered : CUresult := .error 713

/-- The flags of `cuMemHostAlloc`: portable, device-mapped and write-combined. -/
def supportedAllocFlags : BitVec 32 := 0x7

/-- The flags of `cuMemHostRegister`: portable, device-mapped, I/O memory and read-only. -/
def supportedRegisterFlags : BitVec 32 := 0xF

/-- `lupine_host_flags_request_mapping`: both flags for a device mapping are 2. -/
def hostFlagsRequestMapping (flags : BitVec 32) : Bool := flags &&& 0x2 != 0

/-- `LUPINE_MAX_MANAGED_HOST_FLUSH_ROUTES`. -/
def maxManagedHostFlushRoutes : ℤ := 16

/-- What the world answers to a call. -/
structure HostOutcome where
  /-- The default route is the local driver's. -/
  isLocal : Bool := false
  routeId : ℤ := 0
  /-- What the local driver or the server says to the request for memory. -/
  driver : CUresult := .success
  serverHost : CUdeviceptr := 0
  devicePtr : CUdeviceptr := 0
  /-- The memory the local driver hands out. -/
  hostPtr : ℕ := 0
  mmap : Option ℕ := none
  /-- Dirty tracking can be set up. -/
  tracking : Bool := true
  flush : CUresult := .success
  drain : CUresult := .success
  /-- What the local driver or the server says when the memory is given back. -/
  freed : CUresult := .success
  deriving DecidableEq, Repr

/-- The entries that `lupine_enable_dirty_tracking_locked` protects. -/
def tracksDirtyPages (page : PageSize) (host : ℕ) (allocation : TrackedHost) : Bool :=
  host != 0 && allocation.serverHostPtr != 0 && !allocation.localCuda &&
    host % page.bytes == 0 && allocation.storageSize % page.bytes == 0

/-- `lupine_enable_dirty_tracking_locked`. -/
def enableDirtyTrackingLocked (page : PageSize) (host : ℕ) (allocation : TrackedHost)
    (tracking : Bool) : Bool :=
  !tracksDirtyPages page host allocation || tracking

section Calls

variable (page : PageSize) (table : HostTable) (o : HostOutcome)

/-- `cuMemHostAlloc`; `pp` is where the pointer goes. -/
def cuMemHostAlloc (pp : HostPtr) (bytesize : ℕ) (flags : BitVec 32) : CUresult × HostTable :=
  if pp = 0 then (.errorInvalidValue, table)
  else if flags &&& ~~~supportedAllocFlags ≠ 0 then (.errorInvalidValue, table)
  else if o.isLocal then
    if o.driver ≠ .success then (o.driver, table)
    else
      match emplace table o.hostPtr
        { size := bytesize, storageSize := bytesize, userBase := o.hostPtr, flags
          owned := true, localCuda := true, serverHostPtr := o.hostPtr, routeId := o.routeId } with
      | (_, _, false) => (.errorOutOfMemory, table)
      | (inserted, _, true) => (.success, inserted)
  else if bytesize ≠ 0 ∧ o.driver ≠ .success then (o.driver, table)
  else
    match o.mmap with
    | none => (.errorOutOfMemory, table)
    | some ptr =>
      match emplace table ptr
        { size := bytesize
          storageSize := if bytesize = 0 then page.bytes else roundUp page bytesize
          userBase := ptr, flags, owned := true, ownedMmap := true
          serverHostPtr := if bytesize = 0 then 0 else o.serverHost
          devicePtr := if bytesize = 0 then 0 else o.devicePtr, routeId := o.routeId } with
      | (_, _, false) => (.errorOutOfMemory, table)
      | (inserted, allocation, true) =>
        if hostFlagsRequestMapping flags ∧
            !enableDirtyTrackingLocked page ptr allocation o.tracking then
          (.errorOutOfMemory, inserted.erase ptr)
        else (.success, inserted)

/-- `lupine_register_host`. -/
def registerHost (p : HostPtr) (bytesize : ℕ) (flags : BitVec 32) : CUresult × HostTable :=
  if p = 0 ∨ bytesize = 0 then (.errorInvalidValue, table)
  else if flags &&& ~~~supportedRegisterFlags ≠ 0 then (.errorInvalidValue, table)
  else
    let covering := coveringPages page p bytesize
    if hostPagesRegisteredLocked page table covering.base covering.size then
      (errorHostMemoryAlreadyRegistered, table)
    else if o.isLocal then
      if o.driver ≠ .success then (o.driver, table)
      else
        match emplace table p
          { size := bytesize, storageSize := bytesize, userBase := p, flags
            localCuda := true, serverHostPtr := p, routeId := o.routeId } with
        | (_, _, false) => (errorHostMemoryAlreadyRegistered, table)
        | (inserted, _, true) => (.success, inserted)
    else if hostFlagsRequestMapping flags ∧ (p % page.bytes ≠ 0 ∨ bytesize % page.bytes ≠ 0) then
      (.errorInvalidValue, table)
    else if hostFlagsRequestMapping flags ∧ o.driver ≠ .success then (o.driver, table)
    else if hostPagesRegisteredLocked page table covering.base covering.size then
      (errorHostMemoryAlreadyRegistered, table)
    else
      -- the source does not look whether the entry is new
      match emplace table covering.base
        { size := covering.size, storageSize := covering.size, userBase := p, flags
          serverHostPtr := if hostFlagsRequestMapping flags then o.serverHost else 0
          devicePtr := if hostFlagsRequestMapping flags then o.devicePtr else 0
          routeId := o.routeId } with
      | (inserted, allocation, _) =>
        if !enableDirtyTrackingLocked page covering.base allocation o.tracking then
          (.errorOutOfMemory, inserted.erase covering.base)
        else if tracksDirtyPages page covering.base allocation ∧
            (allocation.routeId < 0 ∨ maxManagedHostFlushRoutes ≤ allocation.routeId) then
          (.errorInvalidValue, inserted.erase covering.base)
        else (.success, inserted)

/-- `cuMemHostUnregister`. -/
def cuMemHostUnregister (p : HostPtr) : CUresult × HostTable :=
  if p = 0 then (.errorInvalidValue, table)
  else if o.flush ≠ .success then (o.flush, table)
  else
    match findHostAllocationLocked table p with
    | none => (errorHostMemoryNotRegistered, table)
    | some (tracked, allocation) =>
      if allocation.owned then (.errorInvalidValue, table)
      else if allocation.userBase ≠ p then (errorHostMemoryNotRegistered, table)
      else if o.drain ≠ .success then (o.drain, table.modify tracked ({ · with retiring := true }))
      else if allocation.localCuda ∨ allocation.serverHostPtr ≠ 0 then
        (o.freed, table.erase tracked)
      else (.success, table.erase tracked)

/-- `cuMemFreeHost`. -/
def cuMemFreeHost (p : HostPtr) : CUresult × HostTable :=
  if p = 0 then (.errorInvalidValue, table)
  else if o.flush ≠ .success then (o.flush, table)
  else
    match table.find? p with
    | none => (.errorInvalidValue, table)
    | some (_, allocation) =>
      if o.drain ≠ .success then (o.drain, table.modify p ({ · with retiring := true }))
      else if allocation.localCuda ∨ allocation.serverHostPtr ≠ 0 then (o.freed, table.erase p)
      else (.success, table.erase p)

/-- `cuMemAllocManaged`; `dptr` is where the pointer goes. -/
def cuMemAllocManaged (dptr : HostPtr) (bytesize : ℕ) (flags : BitVec 32) :
    CUresult × HostTable :=
  if dptr = 0 ∨ bytesize = 0 then (.errorInvalidValue, table)
  else if o.isLocal then (o.driver, table)
  else if o.driver ≠ .success then (o.driver, table)
  else
    match o.mmap with
    | none => (.errorOutOfMemory, table)
    | some ptr =>
      match emplace table ptr
        { size := bytesize, storageSize := roundUp page bytesize, flags, owned := true
          ownedMmap := true, managed := true, serverHostPtr := o.devicePtr
          devicePtr := o.devicePtr, deviceAllocBase := o.devicePtr, routeId := o.routeId } with
      | (_, _, false) => (.errorInvalidValue, table)
      | (inserted, allocation, true) =>
        if !enableDirtyTrackingLocked page ptr allocation o.tracking then
          (.errorOutOfMemory, inserted.erase ptr)
        else (.success, inserted)

end Calls

/-- `cuMemFree_v2`, which calls itself for the device memory of a managed allocation. -/
def cuMemFreeLoop (table : HostTable) (dptr : CUdeviceptr) (answers : List HostOutcome) :
    ℕ → CUresult × HostTable
  | 0 => ((answers.headD {}).freed, table)
  | depth + 1 =>
    let o := answers.headD {}
    if o.flush ≠ .success then (o.flush, table)
    else
      match findHostAllocationLocked table dptr with
      | none => (o.freed, table)
      | some (base, allocation) =>
        if base = dptr ∧ allocation.managed then
          if o.drain ≠ .success then (o.drain, table.modify base ({ · with retiring := true }))
          else if allocation.devicePtr ≠ 0 then
            cuMemFreeLoop (table.erase base)
              (if allocation.deviceAllocBase ≠ 0 then allocation.deviceAllocBase
                else allocation.devicePtr) answers.tail depth
          else (.success, table.erase base)
        else (o.freed, table)

/-- `cuMemFree_v2`. A call that calls itself has erased an entry. -/
def cuMemFree (table : HostTable) (dptr : CUdeviceptr) (answers : List HostOutcome) :
    CUresult × HostTable :=
  cuMemFreeLoop table dptr answers (table.entries.length + 1)

inductive HostStep where
  | hostAlloc (pp : HostPtr) (bytesize : UInt64) (flags : BitVec 32) (o : HostOutcome)
  | hostRegister (p : HostPtr) (bytesize : UInt64) (flags : BitVec 32) (o : HostOutcome)
  | hostUnregister (p : HostPtr) (o : HostOutcome)
  | freeHost (p : HostPtr) (o : HostOutcome)
  | allocManaged (dptr : HostPtr) (bytesize : UInt64) (flags : BitVec 32) (o : HostOutcome)
  | memFree (dptr : CUdeviceptr) (answers : List HostOutcome)
  deriving DecidableEq, Repr

def hostCall (page : PageSize) (table : HostTable) : HostStep → CUresult × HostTable
  | .hostAlloc pp bytesize flags o => cuMemHostAlloc page table o pp bytesize.toNat flags
  | .hostRegister p bytesize flags o => registerHost page table o p bytesize.toNat flags
  | .hostUnregister p o => cuMemHostUnregister table o p
  | .freeHost p o => cuMemFreeHost table o p
  | .allocManaged dptr bytesize flags o =>
    cuMemAllocManaged page table o dptr bytesize.toNat flags
  | .memFree dptr answers => cuMemFree table dptr answers

def hostMachine (page : PageSize) : Machine HostTable HostStep where
  step table call := some (hostCall page table call).2

/-! ## What the world promises

`mmap` hands out whole pages of its own, and the local driver memory of its own. -/

def trackedBytes (entry : ℕ × TrackedHost) : Span := ⟨entry.1, entry.2.span⟩

/-- Memory that the local driver has handed out. -/
def TrackedHost.ofDriver (allocation : TrackedHost) : Bool :=
  allocation.localCuda && allocation.owned

/-- `mmap` of so many bytes, which are whole pages. -/
def MmapGrants (page : PageSize) (table : HostTable) (storageSize ptr : ℕ) : Prop :=
  0 < storageSize ∧ ptr % page.bytes = 0 ∧ ptr + storageSize + page.bytes ≤ 2 ^ 64 ∧
    ∀ entry ∈ table.entries, (trackedPages page entry).Apart ⟨ptr, storageSize⟩

/-- The local driver's allocation of so many bytes, which may share a page with another. -/
def DriverGrants (page : PageSize) (table : HostTable) (span ptr : ℕ) : Prop :=
  ptr + span + page.bytes ≤ 2 ^ 64 ∧ ∀ entry ∈ table.entries,
    (trackedBytes entry).Apart ⟨ptr, span⟩ ∧
      ((trackedPages page entry).Apart (coveringPages page ptr span) ∨ entry.2.ofDriver)

instance (page : PageSize) (table : HostTable) (storageSize ptr : ℕ) :
    Decidable (MmapGrants page table storageSize ptr) := inferInstanceAs (Decidable (_ ∧ _))

instance (page : PageSize) (table : HostTable) (span ptr : ℕ) :
    Decidable (DriverGrants page table span ptr) := inferInstanceAs (Decidable (_ ∧ _))

/-- Memory that is handed out is its owner's, and a range that is registered ends, rounded up to a
page, within the address space. -/
def HostGranted (page : PageSize) (table : HostTable) : HostStep → Prop
  | .hostAlloc _ bytesize _ o =>
    if o.isLocal then
      o.driver = .success → DriverGrants page table (max 1 bytesize.toNat) o.hostPtr
    else ∀ ptr ∈ o.mmap, MmapGrants page table
      (if bytesize.toNat = 0 then page.bytes else roundUp page bytesize.toNat) ptr
  | .hostRegister p bytesize _ _ => p + bytesize.toNat + page.bytes ≤ 2 ^ 64
  | .allocManaged _ bytesize _ o =>
    ∀ ptr ∈ o.mmap, MmapGrants page table (roundUp page bytesize.toNat) ptr
  | .hostUnregister .. | .freeHost .. | .memFree .. => True

instance (page : PageSize) (table : HostTable) (step : HostStep) :
    Decidable (HostGranted page table step) :=
  match step with
  | .hostAlloc _ _ _ o =>
    match hlocal : o.isLocal with
    | true => decidable_of_iff (o.driver = .success → _) (by rw [HostGranted, if_pos hlocal])
    | false => decidable_of_iff (∀ ptr ∈ o.mmap, _) (by rw [HostGranted, hlocal, if_neg (by simp)])
  | .hostRegister .. => inferInstanceAs (Decidable (_ ≤ _))
  | .allocManaged _ bytesize _ o =>
    inferInstanceAs (Decidable
      (∀ ptr ∈ o.mmap, MmapGrants page table (roundUp page bytesize.toNat) ptr))
  | .hostUnregister .. | .freeHost .. | .memFree .. => inferInstanceAs (Decidable True)

/-! ## Pages in a 64-bit address space

Rounding up is `ceil` on natural numbers as long as the range ends, rounded up, within the address
space; a size that does not fit leaves nothing. The pages that cover a range begin and end with
whole pages, and whole pages cover themselves. -/

namespace PageSize

variable (page : PageSize)

theorem bytes_pos : 0 < page.bytes := Nat.two_pow_pos _

theorem bytes_dvd : page.bytes ∣ 2 ^ 64 := Nat.pow_dvd_pow 2 page.bits_lt.le

theorem add_bytes_le {n : ℕ} (hdvd : page.bytes ∣ n) (hlt : n < 2 ^ 64) :
    n + page.bytes ≤ 2 ^ 64 := by
  obtain ⟨a, rfl⟩ := hdvd
  obtain ⟨b, hb⟩ := page.bytes_dvd
  rw [hb] at hlt ⊢
  rw [← Nat.mul_succ]
  exact Nat.mul_le_mul_left _ (Nat.lt_of_mul_lt_mul_left hlt)

/-- The first whole page at or after an address. -/
def ceil (n : ℕ) : ℕ := (n + (page.bytes - 1)) / page.bytes * page.bytes

theorem ceil_mono {n m : ℕ} (h : n ≤ m) : page.ceil n ≤ page.ceil m :=
  Nat.mul_le_mul_right _ (Nat.div_le_div_right (Nat.add_le_add_right h _))

theorem le_ceil (n : ℕ) : n ≤ page.ceil n := by
  have hmod := Nat.mod_lt (n + (page.bytes - 1)) page.bytes_pos
  have hdiv := Nat.div_add_mod' (n + (page.bytes - 1)) page.bytes
  have hpos := page.bytes_pos
  rw [ceil]
  omega

theorem ceil_lt (n : ℕ) : page.ceil n < n + page.bytes := by
  have hdiv := Nat.div_mul_le_self (n + (page.bytes - 1)) page.bytes
  have hpos := page.bytes_pos
  rw [ceil]
  omega

theorem ceil_of_dvd {n : ℕ} (h : page.bytes ∣ n) : page.ceil n = n := by
  obtain ⟨a, rfl⟩ := h
  have hpos := page.bytes_pos
  rw [ceil, Nat.mul_add_div hpos, Nat.div_eq_of_lt (Nat.sub_lt hpos Nat.one_pos), Nat.add_zero,
    Nat.mul_comm]

theorem dvd_ceil (n : ℕ) : page.bytes ∣ page.ceil n := Nat.dvd_mul_left _ _

end PageSize

variable {page : PageSize}

theorem roundUp_eq_ceil {n : ℕ} (h : n + page.bytes ≤ 2 ^ 64) : roundUp page n = page.ceil n := by
  have hpos := page.bytes_pos
  rw [roundUp, Nat.mod_eq_of_lt (by omega)]
  rfl

theorem le_roundUp {n : ℕ} (hn : n < 2 ^ 64) (h : 0 < roundUp page n) : n ≤ roundUp page n := by
  rcases Nat.lt_or_ge (2 ^ 64) (n + page.bytes) with hwrap | hfit
  · have hpos := page.bytes_pos
    have hle : page.bytes ≤ 2 ^ 64 := Nat.le_of_dvd (by decide) page.bytes_dvd
    have hmod : (n + (page.bytes - 1)) % 2 ^ 64 < page.bytes := by
      rw [Nat.mod_eq_sub_mod (by omega), Nat.mod_eq_of_lt (by omega)]
      omega
    rw [roundUp, Nat.div_eq_of_lt hmod, Nat.zero_mul] at h
    exact absurd h (Nat.lt_irrefl 0)
  · exact roundUp_eq_ceil hfit ▸ page.le_ceil n

/-- The pages that cover a range, as long as it does not reach the end of the address space. -/
theorem coveringPages_eq {p n : ℕ} (h : p + n + page.bytes ≤ 2 ^ 64) :
    coveringPages page p n
      = ⟨p / page.bytes * page.bytes, page.ceil (p + n) - p / page.bytes * page.bytes⟩ := by
  have hpos := page.bytes_pos
  have hfloor := Nat.div_mul_le_self p page.bytes
  have hceil := page.le_ceil (p + n)
  have hlt : page.ceil (p + n) < 2 ^ 64 := Nat.lt_of_lt_of_le (page.ceil_lt _) h
  rw [coveringPages, Nat.mod_eq_of_lt (by omega : p + n < 2 ^ 64), roundUp_eq_ceil h]
  simp only [Span.mk.injEq, true_and]
  omega

/-- They cover it, and begin and end with whole pages. -/
structure CoveredBy (page : PageSize) (p n : ℕ) (pages : Span) : Prop where
  base_dvd : page.bytes ∣ pages.base
  end_eq : pages.base + pages.size = page.ceil (p + n)
  base_le : pages.base ≤ p
  lt_base : p < pages.base + page.bytes
  end_le : pages.base + pages.size + page.bytes ≤ 2 ^ 64

theorem coveredBy_coveringPages {p n : ℕ} (h : p + n + page.bytes ≤ 2 ^ 64) :
    CoveredBy page p n (coveringPages page p n) := by
  have hfloor := Nat.div_mul_le_self p page.bytes
  have hmod := Nat.mod_lt p page.bytes_pos
  have hdiv := Nat.div_add_mod' p page.bytes
  have hceil := page.le_ceil (p + n)
  have hend : p / page.bytes * page.bytes + (page.ceil (p + n) - p / page.bytes * page.bytes)
      = page.ceil (p + n) := by omega
  have hroom : page.ceil (p + n) + page.bytes ≤ 2 ^ 64 :=
    page.add_bytes_le (page.dvd_ceil _) (Nat.lt_of_lt_of_le (page.ceil_lt _) h)
  rw [coveringPages_eq h]
  refine ⟨Nat.dvd_mul_left _ _, hend, hfloor, ?_, ?_⟩
  · show p < p / page.bytes * page.bytes + page.bytes
    omega
  · rwa [← hend] at hroom

theorem coveringPages_of_dvd {p n : ℕ} (hp : page.bytes ∣ p) (hn : page.bytes ∣ n)
    (h : p + n + page.bytes ≤ 2 ^ 64) : coveringPages page p n = ⟨p, n⟩ := by
  rw [coveringPages_eq h, Nat.div_mul_cancel hp, page.ceil_of_dvd (Nat.dvd_add hp hn),
    Nat.add_sub_cancel_left]

theorem CoveredBy.within {p n : ℕ} {pages : Span} (h : CoveredBy page p n pages) :
    (⟨p, n⟩ : Span).Within pages := ⟨h.base_le, h.end_eq ▸ page.le_ceil _⟩

/-! ## The invariant

Entries end before the address space does and are apart. Entries only leave the table, or enter it
apart from what is there, or are retired where they are. -/

theorem TrackedHost.span_pos (allocation : TrackedHost) : 0 < allocation.span := by
  rw [TrackedHost.span]
  split_ifs <;> omega

theorem TrackedHost.size_le_span (allocation : TrackedHost) :
    allocation.size ≤ allocation.span := by
  rw [TrackedHost.span]
  split_ifs <;> omega

/-- Two entries share no byte, and no page unless both are the local driver's. -/
structure EntriesApart (page : PageSize) (entry entry' : ℕ × TrackedHost) : Prop where
  bytes : (trackedBytes entry).Apart (trackedBytes entry')
  pages : (trackedPages page entry).Apart (trackedPages page entry') ∨
    entry.2.ofDriver ∧ entry'.2.ofDriver

/-- The entries end before the address space does, and are apart. -/
structure RangesInv (page : PageSize) (table : HostTable) : Prop where
  fits : ∀ entry ∈ table.entries, entry.1 + entry.2.span + page.bytes ≤ 2 ^ 64
  apart : ∀ entry ∈ table.entries, ∀ entry' ∈ table.entries, entry ≠ entry' →
    EntriesApart page entry entry'

theorem EntriesApart.symm {entry entry' : ℕ × TrackedHost} (h : EntriesApart page entry entry') :
    EntriesApart page entry' entry :=
  ⟨h.bytes.symm, h.pages.imp Span.Apart.symm And.symm⟩

theorem EntriesApart.of_pages {entry entry' : ℕ × TrackedHost}
    (hentry : entry.1 + entry.2.span + page.bytes ≤ 2 ^ 64)
    (hentry' : entry'.1 + entry'.2.span + page.bytes ≤ 2 ^ 64)
    (h : (trackedPages page entry).Apart (trackedPages page entry')) :
    EntriesApart page entry entry' :=
  ⟨h.mono (coveredBy_coveringPages hentry).within (coveredBy_coveringPages hentry').within,
    Or.inl h⟩

namespace RangesInv

variable {table : HostTable}

theorem init : RangesInv page {} where
  fits _ h := nomatch h
  apart _ h := nomatch h

theorem coveredBy (h : RangesInv page table) {entry : ℕ × TrackedHost}
    (hentry : entry ∈ table.entries) :
    CoveredBy page entry.1 entry.2.span (trackedPages page entry) :=
  coveredBy_coveringPages (h.fits entry hentry)

theorem insert (h : RangesInv page table) {base : ℕ} {allocation : TrackedHost}
    (hfits : base + allocation.span + page.bytes ≤ 2 ^ 64)
    (happart : ∀ entry ∈ table.entries, EntriesApart page entry (base, allocation)) :
    RangesInv page (table.insert base allocation) where
  fits entry hentry := by
    rcases OrderedTable.mem_insert.mp hentry with rfl | ⟨hentry, -⟩
    · exact hfits
    · exact h.fits entry hentry
  apart entry hentry entry' hentry' hne := by
    rcases OrderedTable.mem_insert.mp hentry with rfl | ⟨hentry, -⟩
    · rcases OrderedTable.mem_insert.mp hentry' with rfl | ⟨hentry', -⟩
      · exact absurd rfl hne
      · exact (happart entry' hentry').symm
    · rcases OrderedTable.mem_insert.mp hentry' with rfl | ⟨hentry', -⟩
      · exact happart entry hentry
      · exact h.apart entry hentry entry' hentry' hne

theorem mono (h : RangesInv page table) {table' : HostTable}
    (hsub : ∀ entry ∈ table'.entries, entry ∈ table.entries) : RangesInv page table' where
  fits entry hentry := h.fits entry (hsub entry hentry)
  apart entry hentry entry' hentry' :=
    h.apart entry (hsub entry hentry) entry' (hsub entry' hentry')

theorem erase (h : RangesInv page table) (base : ℕ) : RangesInv page (table.erase base) :=
  h.mono fun _ hentry ↦ (OrderedTable.mem_erase.mp hentry).1

theorem retire (h : RangesInv page table) (base : ℕ) :
    RangesInv page (table.modify base ({ · with retiring := true })) := by
  have hold : ∀ entry ∈ (table.modify base ({ · with retiring := true })).entries,
      ∃ old ∈ table.entries, entry.1 = old.1 ∧ entry.2.span = old.2.span ∧
        entry.2.ofDriver = old.2.ofDriver := by
    intro entry hentry
    obtain ⟨old, hold, rfl⟩ := OrderedTable.mem_modify.mp hentry
    refine ⟨old, hold, rfl, ?_, ?_⟩ <;> (show _ = _; dsimp only; split_ifs <;> rfl)
  refine ⟨fun entry hentry ↦ ?_, fun entry hentry entry' hentry' hne ↦ ?_⟩
  · obtain ⟨old, hmem, hkey, hspan, -⟩ := hold entry hentry
    rw [hkey, hspan]
    exact h.fits old hmem
  · obtain ⟨old, hmem, hkey, hspan, hdriver⟩ := hold entry hentry
    obtain ⟨old', hmem', hkey', hspan', hdriver'⟩ := hold entry' hentry'
    have holds := h.apart old hmem old' hmem' fun heq ↦
      hne (OrderedTable.eq_of_key hentry hentry' (by rw [hkey, hkey', heq]))
    obtain ⟨hbytes, hpages⟩ := holds
    constructor
    · rwa [trackedBytes, trackedBytes, hkey, hspan, hkey', hspan']
    · rwa [trackedPages, trackedPages, hkey, hspan, hdriver, hkey', hspan', hdriver']

/-! ### Lookups

An address is in one entry at most, so the entry that the lookup stops at is the one that contains
the address, if any does. -/

theorem eq_of_covers (h : RangesInv page table) {entry entry' : ℕ × TrackedHost} {p : ℕ}
    (hentry : entry ∈ table.entries) (hentry' : entry' ∈ table.entries)
    (hp : (trackedBytes entry).Covers p) (hp' : (trackedBytes entry').Covers p) :
    entry = entry' := by
  by_contra hne
  exact (h.apart entry hentry entry' hentry' hne).bytes.not_covers hp hp'

end RangesInv

/-- The address is the base of the entry, or that of one of its bytes. -/
def HostContains (entry : ℕ × TrackedHost) (p : ℕ) : Prop :=
  p = entry.1 ∨ (⟨entry.1, entry.2.size⟩ : Span).Covers p

theorem HostContains.covers {entry : ℕ × TrackedHost} {p : ℕ} (h : HostContains entry p) :
    (trackedBytes entry).Covers p := by
  rcases h with rfl | hcovers
  · exact Span.covers_base entry.2.span_pos
  · have hwithin : (⟨entry.1, entry.2.size⟩ : Span).Within (trackedBytes entry) :=
      ⟨le_rfl, Nat.add_le_add_left entry.2.size_le_span _⟩
    exact hwithin.covers hcovers

namespace RangesInv

variable {table : HostTable}

/-- **Lookups.** What is found for an address is the entry that contains it. -/
theorem find_eq_some (h : RangesInv page table) {entry : ℕ × TrackedHost} {p : ℕ} :
    findHostAllocationLocked table p = some entry ↔
      entry ∈ table.entries ∧ HostContains entry p := by
  rw [findHostAllocationLocked]
  cases hfind : table.find? p with
  | some found =>
    obtain ⟨hfound, rfl⟩ := OrderedTable.find?_eq_some.mp hfind
    rw [Option.some_inj]
    constructor
    · rintro rfl
      exact ⟨hfound, Or.inl rfl⟩
    · rintro ⟨hentry, hcontains⟩
      exact h.eq_of_covers hfound hentry (Span.covers_base found.2.span_pos) hcontains.covers
  | none =>
    have hkey := OrderedTable.find?_eq_none.mp hfind
    cases hprev : table.prev? p with
    | none =>
      have hafter := OrderedTable.prev?_eq_none.mp hprev
      refine ⟨(nomatch ·), fun ⟨hentry, hcontains⟩ ↦ ?_⟩
      exact absurd hcontains.covers.1 (Nat.not_le.mpr (hafter entry hentry))
    | some found =>
      obtain ⟨hfound, hle, hlast⟩ := OrderedTable.of_prev?_eq_some hprev
      have hfits := h.fits found hfound
      have hsize := found.2.size_le_span
      have hpos := page.bytes_pos
      have hmod : (found.1 + found.2.size) % 2 ^ 64 = found.1 + found.2.size :=
        Nat.mod_eq_of_lt (by omega)
      show (if found.1 ≤ p ∧ p < (found.1 + found.2.size) % 2 ^ 64 then some found else none)
        = some entry ↔ _
      rw [hmod, Option.ite_none_right_eq_some, Option.some_inj]
      constructor
      · rintro ⟨hcovers, rfl⟩
        exact ⟨hfound, Or.inr hcovers⟩
      · rintro ⟨hentry, hcontains⟩
        have hcovers := hcontains.resolve_left (hkey entry hentry).symm
        -- the base of the last entry before the address is in the entry that contains it
        have hbase : (trackedBytes entry).Covers found.1 :=
          ⟨hlast entry hentry hcovers.1, Nat.lt_of_le_of_lt hle hcontains.covers.2⟩
        obtain rfl := h.eq_of_covers hfound hentry (Span.covers_base found.2.span_pos) hbase
        exact ⟨hcovers, rfl⟩

/-! ### Registrations

The entry with the greater base ends on no earlier page. The check therefore only has to look at two
entries, the last one up to the base of the range and the first one behind that. -/

theorem end_le_end (h : RangesInv page table) {entry entry' : ℕ × TrackedHost}
    (hentry : entry ∈ table.entries) (hentry' : entry' ∈ table.entries)
    (hle : entry.1 ≤ entry'.1) :
    (trackedPages page entry).base + (trackedPages page entry).size ≤
      (trackedPages page entry').base + (trackedPages page entry').size := by
  rw [(h.coveredBy hentry).end_eq, (h.coveredBy hentry').end_eq]
  rcases eq_or_ne entry entry' with rfl | hne
  · exact le_rfl
  · refine page.ceil_mono ?_
    have hpos := entry'.2.span_pos
    have hbytes : entry.1 + entry.2.span ≤ entry'.1 ∨ entry'.1 + entry'.2.span ≤ entry.1 :=
      (h.apart entry hentry entry' hentry' hne).bytes
    omega

theorem apart_iff_of_le (h : RangesInv page table) {entry : ℕ × TrackedHost} {pages : Span}
    (hentry : entry ∈ table.entries) (hpos : 0 < pages.size) (hle : entry.1 ≤ pages.base) :
    (trackedPages page entry).Apart pages ↔
      (trackedPages page entry).base + (trackedPages page entry).size ≤ pages.base := by
  have hbase := (h.coveredBy hentry).base_le
  rw [Span.Apart, or_iff_left_iff_imp]
  omega

theorem apart_iff_of_lt (h : RangesInv page table) {entry : ℕ × TrackedHost} {pages : Span}
    (hentry : entry ∈ table.entries) (hdvd : page.bytes ∣ pages.base + pages.size)
    (hlt : pages.base < entry.1) :
    (trackedPages page entry).Apart pages ↔ pages.base + pages.size ≤ entry.1 := by
  obtain ⟨hbase, hend, hle, hroom, -⟩ := h.coveredBy hentry
  have hceil := page.le_ceil (entry.1 + entry.2.span)
  constructor
  · rintro (hbefore | hafter)
    · omega
    · exact Nat.le_trans hafter hle
  · intro hafter
    obtain ⟨a, ha⟩ := hdvd
    obtain ⟨b, hb⟩ := hbase
    rw [ha] at hafter
    rw [hb, ← Nat.mul_succ] at hroom
    have hab : a < b + 1 := Nat.lt_of_mul_lt_mul_left (Nat.lt_of_le_of_lt hafter hroom)
    refine Or.inr ?_
    rw [ha, hb]
    exact Nat.mul_le_mul_left _ (Nat.le_of_lt_succ hab)

/-- **The check.** Whole pages are refused exactly when they meet the pages of an entry. -/
theorem hostPagesRegistered_eq_false (h : RangesInv page table) {pages : Span}
    (hbase : page.bytes ∣ pages.base) (hsize : page.bytes ∣ pages.size) (hpos : 0 < pages.size)
    (hlt : pages.base + pages.size < 2 ^ 64) :
    hostPagesRegisteredLocked page table pages.base pages.size = false ↔
      ∀ entry ∈ table.entries, (trackedPages page entry).Apart pages := by
  -- only the entry before the pages is looked at, and the entries before that one end earlier
  have hprev : (match table.prev? pages.base with
      | some prev =>
        let covered := trackedPages page prev
        decide (pages.base < (covered.base + covered.size) % 2 ^ 64)
      | none => false) = false ↔ ∀ entry ∈ table.entries, entry.1 ≤ pages.base →
        (trackedPages page entry).Apart pages := by
    cases hprev : table.prev? pages.base with
    | none =>
      have hafter := OrderedTable.prev?_eq_none.mp hprev
      refine ⟨fun _ entry hentry hle ↦ ?_, fun _ ↦ rfl⟩
      exact absurd hle (Nat.not_le.mpr (hafter entry hentry))
    | some prev =>
      obtain ⟨hmem, hle, hlast⟩ := OrderedTable.of_prev?_eq_some hprev
      have hfits := (h.coveredBy hmem).end_le
      have hbytes := page.bytes_pos
      show decide (pages.base < ((trackedPages page prev).base + (trackedPages page prev).size)
        % 2 ^ 64) = false ↔ _
      rw [Nat.mod_eq_of_lt (by omega), decide_eq_false_iff_not, Nat.not_lt]
      constructor
      · intro hend entry hentry hentryLe
        rw [h.apart_iff_of_le hentry hpos hentryLe]
        exact Nat.le_trans (h.end_le_end hentry hmem (hlast entry hentry hentryLe)) hend
      · exact fun hall ↦ (h.apart_iff_of_le hmem hpos hle).mp (hall prev hmem hle)
  -- of the entries behind the base only the first is looked at, as the others begin later
  have hupper : (match table.upper? pages.base with
      | some (host, _) => decide (host < (pages.base + pages.size) % 2 ^ 64)
      | none => false) = false ↔ ∀ entry ∈ table.entries, pages.base < entry.1 →
        (trackedPages page entry).Apart pages := by
    have hdvd := Nat.dvd_add hbase hsize
    rw [Nat.mod_eq_of_lt hlt]
    cases hupper : table.upper? pages.base with
    | none =>
      have hbefore := OrderedTable.upper?_eq_none.mp hupper
      refine ⟨fun _ entry hentry hgt ↦ ?_, fun _ ↦ rfl⟩
      exact absurd hgt (Nat.not_lt.mpr (hbefore entry hentry))
    | some upper =>
      obtain ⟨hmem, hgt, hfirst⟩ := OrderedTable.of_upper?_eq_some hupper
      show decide (upper.1 < pages.base + pages.size) = false ↔ _
      rw [decide_eq_false_iff_not, Nat.not_lt]
      constructor
      · intro hend entry hentry hentryGt
        rw [h.apart_iff_of_lt hentry hdvd hentryGt]
        exact Nat.le_trans hend (hfirst entry hentry hentryGt)
      · exact fun hall ↦ (h.apart_iff_of_lt hmem hdvd hgt).mp (hall upper hmem hgt)
  -- every entry begins either before the pages or behind their base
  rw [hostPagesRegisteredLocked, Bool.or_eq_false_iff, hprev, hupper]
  constructor
  · intro hall entry hentry
    rcases Nat.lt_or_ge pages.base entry.1 with hgt | hle
    · exact hall.2 entry hentry hgt
    · exact hall.1 entry hentry hle
  · exact fun hall ↦ ⟨fun entry hentry _ ↦ hall entry hentry, fun entry hentry _ ↦
      hall entry hentry⟩

/-! ### Calls

What a call adds comes from `mmap`, from the local driver or from a checked range, and each of the
three is apart from the entries that are there. -/

theorem insertMapped (h : RangesInv page table) {ptr : ℕ} {allocation : TrackedHost}
    (hgrants : MmapGrants page table allocation.storageSize ptr)
    (hle : allocation.size ≤ allocation.storageSize) (hdvd : page.bytes ∣ allocation.storageSize) :
    RangesInv page (table.insert ptr allocation) := by
  obtain ⟨hpos, hptr, hfits, happart⟩ := hgrants
  have hspan : allocation.span = allocation.storageSize := by
    rw [TrackedHost.span, max_eq_right hle, if_neg (Nat.ne_of_gt hpos)]
  have hfits' : ptr + allocation.span + page.bytes ≤ 2 ^ 64 := hspan ▸ hfits
  refine h.insert hfits' fun entry hentry ↦ .of_pages (h.fits entry hentry) hfits' ?_
  have hpages : trackedPages page (ptr, allocation) = ⟨ptr, allocation.storageSize⟩ := by
    rw [trackedPages, hspan]
    exact coveringPages_of_dvd (Nat.dvd_of_mod_eq_zero hptr) hdvd hfits
  exact hpages ▸ happart entry hentry

theorem insertDriver (h : RangesInv page table) {bytesize ptr : ℕ} {allocation : TrackedHost}
    (hgrants : DriverGrants page table (max 1 bytesize) ptr)
    (hspan : allocation.span = max 1 bytesize) (hdriver : allocation.ofDriver) :
    RangesInv page (table.insert ptr allocation) := by
  obtain ⟨hfits, happart⟩ := hgrants
  rw [← hspan] at hfits happart
  refine h.insert hfits fun entry hentry ↦ ?_
  obtain ⟨hbytes, hpages⟩ := happart entry hentry
  exact ⟨hbytes, hpages.imp_right fun hentryDriver ↦ ⟨hentryDriver, hdriver⟩⟩

/-- A range that has passed the check. -/
theorem insertRegistered (h : RangesInv page table) {base : ℕ} {allocation : TrackedHost}
    {pages : Span} (hfits : base + allocation.span + page.bytes ≤ 2 ^ 64)
    (hpages : trackedPages page (base, allocation) = pages)
    (happart : ∀ entry ∈ table.entries, (trackedPages page entry).Apart pages) :
    RangesInv page (table.insert base allocation) :=
  h.insert hfits fun entry hentry ↦ .of_pages (h.fits entry hentry) hfits
    (hpages ▸ happart entry hentry)

end RangesInv

theorem emplace_eq_true {table inserted : HostTable} {base : ℕ} {allocation entry : TrackedHost}
    (h : emplace table base allocation = (inserted, entry, true)) :
    inserted = table.insert base allocation := by
  rw [emplace] at h
  split at h
  next => exact absurd (Prod.mk.inj (Prod.mk.inj h).2).2 (by simp)
  next => exact (Prod.mk.inj h).1.symm

theorem dvd_roundUp (page : PageSize) (n : ℕ) : page.bytes ∣ roundUp page n :=
  Nat.dvd_mul_left _ _

namespace RangesInv

variable {table : HostTable} {o : HostOutcome} {p : Prop} [Decidable p]

theorem guarded (h : RangesInv page table) {failure : CUresult} {rest : CUresult × HostTable}
    (hrest : ¬p → RangesInv page rest.2) :
    RangesInv page (if p then (failure, table) else rest).2 := by
  split_ifs with hp
  · exact h
  · exact hrest hp

theorem undone (h : RangesInv page table) {failure : CUresult} (base : ℕ) :
    RangesInv page (if p then (failure, table.erase base) else (.success, table)).2 := by
  split_ifs
  · exact h.erase base
  · exact h

theorem cuMemHostAlloc (h : RangesInv page table) {pp : HostPtr} {bytesize : UInt64}
    {flags : BitVec 32} (hgranted : HostGranted page table (.hostAlloc pp bytesize flags o)) :
    RangesInv page (Lupine.cuMemHostAlloc page table o pp bytesize.toNat flags).2 := by
  rw [HostGranted] at hgranted
  refine h.guarded fun _ ↦ h.guarded fun _ ↦ ?_
  split
  next hlocal =>
    rw [if_pos hlocal] at hgranted
    refine h.guarded fun hdriver ↦ ?_
    split
    next => exact h
    next inserted allocation hinserted =>
      obtain rfl := emplace_eq_true hinserted
      refine h.insertDriver (hgranted (not_not.mp hdriver)) ?_ rfl
      simp only [TrackedHost.span, max_self]
      split_ifs <;> omega
  next hremote =>
    rw [if_neg hremote] at hgranted
    refine h.guarded fun _ ↦ ?_
    split
    next => exact h
    next ptr hptr =>
      split
      next => exact h
      next inserted allocation hinserted =>
        obtain rfl := emplace_eq_true hinserted
        have hgrants := hgranted ptr hptr
        refine undone (h.insertMapped hgrants ?_ ?_) ptr
        · show bytesize.toNat ≤ _
          split_ifs with hzero
          · exact Nat.le_trans (Nat.le_of_eq hzero) (Nat.zero_le _)
          · have hpos := hgrants.1
            rw [if_neg hzero] at hpos
            exact le_roundUp bytesize.toNat_lt hpos
        · show page.bytes ∣ _
          split_ifs
          · exact Nat.dvd_refl _
          · exact dvd_roundUp page _

theorem cuMemAllocManaged (h : RangesInv page table) {dptr : HostPtr} {bytesize : UInt64}
    {flags : BitVec 32} (hgranted : HostGranted page table (.allocManaged dptr bytesize flags o)) :
    RangesInv page (Lupine.cuMemAllocManaged page table o dptr bytesize.toNat flags).2 := by
  refine h.guarded fun _ ↦ h.guarded fun _ ↦ h.guarded fun _ ↦ ?_
  split
  next => exact h
  next ptr hptr =>
    split
    next => exact h
    next inserted allocation hinserted =>
      obtain rfl := emplace_eq_true hinserted
      have hgrants := hgranted ptr hptr
      exact undone (h.insertMapped hgrants (le_roundUp bytesize.toNat_lt hgrants.1)
        (dvd_roundUp page _)) ptr

theorem registerHost (h : RangesInv page table) {ptr : HostPtr} {bytesize : UInt64}
    {flags : BitVec 32} (hgranted : HostGranted page table (.hostRegister ptr bytesize flags o)) :
    RangesInv page (Lupine.registerHost page table o ptr bytesize.toNat flags).2 := by
  have hcovered := coveredBy_coveringPages hgranted
  refine h.guarded fun hargs ↦ h.guarded fun _ ↦ h.guarded fun hfree ↦ ?_
  obtain ⟨-, hbytes⟩ := not_or.mp hargs
  have hbytesPos : 0 < bytesize.toNat := Nat.pos_of_ne_zero hbytes
  set pages := coveringPages page ptr bytesize.toNat with hpages
  have hceil := page.le_ceil (ptr + bytesize.toNat)
  have hbytesOf := page.bytes_pos
  obtain ⟨hbase, hend, hle, -, hroom⟩ := hcovered
  have hdvd : page.bytes ∣ pages.size :=
    (Nat.dvd_add_right hbase).mp (hend ▸ page.dvd_ceil _)
  -- no tracked pages meet those of the call, as it went on
  have happart := (h.hostPagesRegistered_eq_false hbase hdvd (by omega) (by omega)).mp
    (eq_false_of_ne_true hfree)
  split
  -- a local registration is entered with its own size
  next hlocal =>
    refine h.guarded fun _ ↦ ?_
    split
    next => exact h
    next inserted allocation hinserted =>
      obtain rfl := emplace_eq_true hinserted
      have hspan : max bytesize.toNat bytesize.toNat = bytesize.toNat := max_self _
      refine h.insertRegistered ?_ ?_ happart
      · rwa [TrackedHost.span, hspan, if_neg hbytes]
      · rw [trackedPages, TrackedHost.span, hspan, if_neg hbytes]
  next hremote =>
    refine h.guarded fun _ ↦ h.guarded fun _ ↦ ?_
    have hnone : table.find? pages.base = none := by
      rw [OrderedTable.find?_eq_none]
      rintro entry hentry hkey
      have hin := (h.coveredBy hentry).within.covers (Span.covers_base entry.2.span_pos)
      rw [hkey] at hin
      exact (happart entry hentry).not_covers hin (Span.covers_base (by omega))
    split
    next inserted allocation _ hinserted =>
      rw [emplace, hnone] at hinserted
      obtain ⟨rfl, hentry⟩ := Prod.mk.inj hinserted
      obtain ⟨hallocation, -⟩ := Prod.mk.inj hentry
      rw [hallocation]
      have hspan : allocation.span = pages.size := by
        rw [← hallocation]
        show (if max pages.size pages.size = 0 then 1 else max pages.size pages.size) = pages.size
        rw [max_self, if_neg (by omega)]
      -- a remote one is entered with whole pages, and taken out again if anything fails
      have htracked : RangesInv page (table.insert pages.base allocation) := by
        refine h.insertRegistered (hspan ▸ hroom) ?_ happart
        rw [trackedPages, hspan]
        exact coveringPages_of_dvd hbase hdvd hroom
      split_ifs
      · exact htracked.erase _
      · exact htracked.erase _
      · exact htracked

theorem cuMemHostUnregister (h : RangesInv page table) (ptr : HostPtr) :
    RangesInv page (Lupine.cuMemHostUnregister table o ptr).2 := by
  refine h.guarded fun _ ↦ h.guarded fun _ ↦ ?_
  split
  next => exact h
  next tracked allocation _ =>
    refine h.guarded fun _ ↦ h.guarded fun _ ↦ ?_
    split_ifs
    · exact h.retire tracked
    · exact h.erase tracked
    · exact h.erase tracked

theorem cuMemFreeHost (h : RangesInv page table) (ptr : HostPtr) :
    RangesInv page (Lupine.cuMemFreeHost table o ptr).2 := by
  refine h.guarded fun _ ↦ h.guarded fun _ ↦ ?_
  split
  next => exact h
  next =>
    split_ifs
    · exact h.retire ptr
    · exact h.erase ptr
    · exact h.erase ptr

theorem cuMemFreeLoop (h : RangesInv page table) (depth : ℕ) (dptr : CUdeviceptr)
    (answers : List HostOutcome) :
    RangesInv page (Lupine.cuMemFreeLoop table dptr answers depth).2 := by
  induction depth generalizing table dptr answers with
  | zero => exact h
  | succ depth ih =>
    refine h.guarded fun _ ↦ ?_
    split
    next => exact h
    next base allocation _ =>
      split_ifs
      · exact h.retire base
      · exact ih (h.erase base) _ _
      · exact ih (h.erase base) _ _
      · exact h.erase base
      · exact h

/-- **One call.** What a call adds is apart from what is there. -/
theorem step (h : RangesInv page table) {step : HostStep} (hgranted : HostGranted page table step) :
    RangesInv page (hostCall page table step).2 := by
  cases step with
  | hostAlloc pp bytesize flags o => exact h.cuMemHostAlloc hgranted
  | hostRegister ptr bytesize flags o => exact h.registerHost hgranted
  | hostUnregister ptr o => exact h.cuMemHostUnregister ptr
  | freeHost ptr o => exact h.cuMemFreeHost ptr
  | allocManaged dptr bytesize flags o => exact h.cuMemAllocManaged hgranted
  | memFree dptr answers => exact h.cuMemFreeLoop _ dptr answers

end RangesInv

/-- **Host allocations.** In every sequence of calls that are granted what they are, no two
allocations share a byte, and none a page unless both are the local driver's; a range can be
registered exactly when its pages meet those of no allocation; and what is found for an address is
the allocation whose base it is, or one of whose bytes has it. -/
theorem hostRanges_sound (page : PageSize) (steps : List HostStep) (table : HostTable)
    (hrun : ((hostMachine page).restrict (HostGranted page)).run {} steps = some table) :
    (∀ entry ∈ table.entries, ∀ entry' ∈ table.entries, entry ≠ entry' →
      EntriesApart page entry entry') ∧
    (∀ p bytesize, 0 < bytesize → p + bytesize + page.bytes ≤ 2 ^ 64 →
      (hostPagesRegisteredLocked page table (coveringPages page p bytesize).base
          (coveringPages page p bytesize).size = false ↔
        ∀ entry ∈ table.entries, (trackedPages page entry).Apart (coveringPages page p bytesize))) ∧
    ∀ p entry, findHostAllocationLocked table p = some entry ↔
      entry ∈ table.entries ∧ HostContains entry p := by
  have hinv : RangesInv page table := by
    refine Machine.run_invariant _ (fun table step table' h hstep ↦ ?_) RangesInv.init hrun
    obtain ⟨hgranted, hstep⟩ := Machine.step_restrict.mp hstep
    obtain rfl := Option.some.inj hstep
    exact h.step hgranted
  refine ⟨hinv.apart, fun p bytesize hpos hfits ↦ ?_, fun p entry ↦ hinv.find_eq_some⟩
  obtain ⟨hbase, hend, hle, -, hroom⟩ := coveredBy_coveringPages hfits
  have hceil := page.le_ceil (p + bytesize)
  have hbytes := page.bytes_pos
  have hdvd : page.bytes ∣ (coveringPages page p bytesize).size :=
    (Nat.dvd_add_right hbase).mp (hend ▸ page.dvd_ceil _)
  exact hinv.hostPagesRegistered_eq_false hbase hdvd (by omega) (by omega)

def smallPages : PageSize := ⟨12, by decide⟩

/-- Memory is allocated, a range next to it registered, one that meets it refused, and the first
freed. -/
def allocateAndRegister : List HostStep :=
  [.hostAlloc 8 100 0 { mmap := some 0x10000, serverHost := 0x900000, devicePtr := 0x900000 },
    .hostRegister 0x11800 0x1000 0 {}, .hostRegister 0x10800 0x1000 0 {},
    .allocManaged 8 5000 0 { mmap := some 0x20000, devicePtr := 0x20000 },
    .freeHost 0x10000 {}]

theorem hostRanges_sound_allocateAndRegister :
    ∃ table, ((hostMachine smallPages).restrict (HostGranted smallPages)).run {}
        allocateAndRegister = some table ∧
      findHostAllocationLocked table 0x10000 = none ∧
      (findHostAllocationLocked table 0x11000).map Prod.fst = some 0x11000 ∧
      ∀ entry ∈ table.entries, ∀ entry' ∈ table.entries, entry ≠ entry' →
        EntriesApart smallPages entry entry' := by
  have hrun : ∃ table, ((hostMachine smallPages).restrict (HostGranted smallPages)).run {}
      allocateAndRegister = some table ∧ findHostAllocationLocked table 0x10000 = none ∧
        (findHostAllocationLocked table 0x11000).map Prod.fst = some 0x11000 := by
    refine ⟨_, rfl, ?_, ?_⟩ <;> decide +kernel
  obtain ⟨table, hrun, hfreed, hregistered⟩ := hrun
  exact ⟨table, hrun, hfreed, hregistered, (hostRanges_sound smallPages _ table hrun).1⟩

/-- **What is tracked by the byte.** The local driver's allocations of 16 bytes share a page, and an
allocation of no bytes is found by its base and by none of the addresses in its page. -/
theorem hostRanges_share_page_and_base :
    (∃ table, (hostMachine smallPages).run {}
        [.hostAlloc 8 16 0 { isLocal := true, hostPtr := 0x200000 },
          .hostAlloc 8 16 0 { isLocal := true, hostPtr := 0x200200 }] = some table ∧
      ∃ entry ∈ table.entries, ∃ entry' ∈ table.entries, entry ≠ entry' ∧
        ¬(trackedPages smallPages entry).Apart (trackedPages smallPages entry')) ∧
    ∃ table entry, (hostMachine smallPages).run {} [.hostAlloc 8 0 0 { mmap := some 0x10000 }]
        = some table ∧
      findHostAllocationLocked table 0x10000 = some entry ∧ entry.2.size = 0 ∧
      (trackedPages smallPages entry).Covers 0x10001 ∧
      findHostAllocationLocked table 0x10001 = none := by
  constructor
  · refine ⟨_, rfl, ?_⟩
    decide +kernel
  · refine ⟨_, _, rfl, rfl, ?_, ?_, ?_⟩ <;> decide +kernel

end Lupine
