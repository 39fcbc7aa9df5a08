import Lupine.Foundation.Machine
import Lupine.Foundation.PointerTable

/-!
# Demand fetches of invalidated host memory

When kernels may have written to mapped memory, the client's copy of it is invalidated: its pages
lose all protection bits and a fault fetches what the host wants to see. Freshness is kept by chunk,
protection by page, and copies from the device may write any range of bytes.

## Windows

A fetch opens the pages of its run before their bytes arrive, and a copy opens the pages of its
destination. Until the fetch is done, or the copy is marked, other threads can touch these pages
without a fault. A copy that is marked makes its pages readable, but only the chunks it covers whole
count as fresh; when a fetch is in flight, or protections were deferred for one, none do.

## What is not modelled

Device writes are part of the invalidation that follows them, and a fault is handled in one step,
except that a fetch goes byte by byte. A fetch that fails ends the program. Fetches from normal
context, flushes, the queue of dirty pages and retirement are left out. `io_pins` counts the copies
that are open.

## What is true of every byte

The invariant is about bytes, chunks and pages at once. What can be read is usable or busy; what is
usable holds the latest value; what the host or a copy wrote since the last invalidation is not in a
run that will be fetched; and a run or an open copy has the latest as far as it has come. A fetch
and a copy that fills stale chunks exclude each other; that is a part of the condition, as the code
does not bring it about.
-/

namespace Lupine

open Foundation

/-! ## State

The allocation keeps freshness by chunk and protection by page. A fetch and the open copies have the
byte they have come to, so that the host can read or write between two bytes. -/

/-- A mapped allocation: pages are as long as `pageSize`, chunks as `chunkPages` pages. -/
structure FetchConfig where
  pageSize : ℕ := 4096
  chunkPages : ℕ := 16
  readaheadCap : ℕ := 4 * 1024 * 1024
  pageCount : ℕ
  size : ℕ
  page_pos : 0 < pageSize := by decide
  chunk_pos : 0 < chunkPages := by decide
  size_le : size ≤ pageCount * pageSize := by decide

namespace FetchConfig

variable (config : FetchConfig)

/-- `LUPINE_DEMAND_FETCH_CHUNK_BYTES`. -/
def chunkBytes : ℕ := config.pageSize * config.chunkPages

/-- `storage_size`. -/
def storageSize : ℕ := config.pageCount * config.pageSize

/-- `fresh_chunk_count`. -/
def freshChunkCount : ℕ := (config.storageSize + config.chunkBytes - 1) / config.chunkBytes

end FetchConfig

/-- `device_stale`. The value 3 lasts as long as the step that invalidates. -/
inductive DeviceStale where
  | fresh
  | invalidated
  | fetching
  deriving DecidableEq, Repr

inductive Protection where
  | none
  | read
  | readWrite
  deriving DecidableEq, Repr

/-- A fetch in flight, of the chunks from `first` to before `last`; the bytes before `next` have
arrived. -/
structure FetchRun where
  first : ℕ
  last : ℕ
  next : ℕ
  deriving DecidableEq, Repr

/-- A copy from the device between `lupine_prepare_host_range_write` and
`lupine_mark_host_range_clean`, with the range it prepared; the bytes before `next` are written. -/
structure OpenCopy where
  start : ℕ
  stop : ℕ
  next : ℕ
  deriving DecidableEq, Repr

/-- The allocation, the memory on both sides, and the copies by thread. The last two fields are not
in the source: the latest value of every byte, and the bytes that the host or a copy wrote since the
last invalidation. -/
structure FetchState where
  deviceStale : DeviceStale := .fresh
  freshChunks : ℕ → Bool := fun _ ↦ false
  fetchSeqNext : ℕ := 0
  fetchReadahead : ℕ := 0
  restorePending : Bool := false
  protection : ℕ → Protection := fun _ ↦ .read
  fetch : Option FetchRun := none
  copies : AList (fun _ : ℕ ↦ OpenCopy) := ∅
  host : ℕ → UInt8 := fun _ ↦ 0
  device : ℕ → UInt8 := fun _ ↦ 0
  latest : ℕ → UInt8 := fun _ ↦ 0
  written : ℕ → Bool := fun _ ↦ false

inductive FetchStep where
  /-- Kernels leave `contents` in the memory and `lupine_sync_mapped_device_to_host` invalidates. -/
  | invalidate (contents : ℕ → UInt8)
  /-- `lupine_sigsegv_handler`, for a read or a write. -/
  | fault (offset : ℕ) (write : Bool)
  | hostRead (offset : ℕ)
  | hostWrite (offset : ℕ) (byte : UInt8)
  /-- A byte of the fetch arrives. -/
  | fetchByte
  /-- The chunks are marked, and `lupine_finish_demand_fetch`. -/
  | fetchFinish
  | prepareHostRangeWrite (thread start size : ℕ)
  /-- A copy writes its next byte. -/
  | payload (thread : ℕ) (byte : UInt8)
  | markHostRangeClean (thread : ℕ)

namespace FetchState

variable (config : FetchConfig) (st : FetchState)

/-! ## Fetching

The run of a fetch grows with the readahead window, but no further than the first chunk that is not
stale. -/

def protectChunks (protection : ℕ → Protection) (first last : ℕ) (value : Protection) :
    ℕ → Protection :=
  fun page ↦
    if first ≤ page / config.chunkPages ∧ page / config.chunkPages < last then value
    else protection page

/-- `lupine_apply_fresh_protections`. -/
def applyFreshProtections : ℕ → Protection :=
  fun page ↦ if st.freshChunks (page / config.chunkPages) then .read else .none

/-- How many chunks from `first` on are stale, of `count` that are wanted. -/
def staleChunks (freshChunks : ℕ → Bool) (first : ℕ) : ℕ → ℕ
  | 0 => 0
  | count + 1 => if freshChunks first then 0 else staleChunks freshChunks (first + 1) count + 1

/-- `limit` and the new `fetch_readahead`. -/
def readahead (start : ℕ) : ℕ × ℕ :=
  if start ≠ 0 ∧ start = st.fetchSeqNext ∧ config.chunkBytes ≤ st.fetchReadahead then
    if config.readaheadCap ≤ st.fetchReadahead then (config.storageSize, st.fetchReadahead)
    else
      let wider := min (st.fetchReadahead * 2) config.readaheadCap
      (min (start + wider) config.storageSize, wider)
  else (min (start + config.chunkBytes) config.storageSize, config.chunkBytes)

/-- The run that `lupine_demand_fetch_run` fetches. -/
def fetchRun (offset : ℕ) : FetchRun :=
  let first := offset / config.chunkBytes
  let start := first * config.chunkBytes
  let wanted := ((st.readahead config start).1 - start + config.chunkBytes - 1) / config.chunkBytes
  ⟨first, first + staleChunks st.freshChunks first wanted, start⟩

/-- `lupine_demand_fetch_run` up to its request. -/
def beginFetch (offset : ℕ) : FetchState :=
  let run := st.fetchRun config offset
  { st with
    deviceStale := .fetching
    fetchReadahead := (st.readahead config run.next).2
    protection := protectChunks config st.protection run.first run.last .readWrite
    fetch := some run }

/-- The rest of `lupine_demand_fetch_run`, and `lupine_finish_demand_fetch`. -/
def finishFetch (run : FetchRun) : FetchState :=
  let freshChunks := fun chunk ↦
    if run.first ≤ chunk ∧ chunk < run.last then true else st.freshChunks chunk
  let allFresh := (List.range config.freshChunkCount).all freshChunks
  let fetched := { st with
    freshChunks
    fetchSeqNext := if run.last ≤ run.first then (run.first + 1) * config.chunkBytes
      else min (run.last * config.chunkBytes) config.storageSize
    deviceStale := if allFresh then .fresh else .invalidated
    fetch := none }
  if st.copies.keys = [] then
    if st.restorePending then
      { fetched with protection := fetched.applyFreshProtections config, restorePending := false }
    else { fetched with protection := protectChunks config st.protection run.first run.last .read }
  else { fetched with restorePending := true }

/-- `lupine_sigsegv_handler`. -/
def handleFault (offset : ℕ) : FetchState :=
  if st.deviceStale ≠ .fresh ∧ st.freshChunks (offset / config.chunkBytes) = false then
    -- another thread's fetch is waited for, and the access tried again
    if st.deviceStale = .fetching then st else st.beginFetch config offset
  else
    { st with
      protection := Function.update st.protection (offset / config.pageSize) .readWrite }

/-! ## Copies

A copy opens the pages of its destination and is marked when it is done. Which chunks then count as
fresh depends on whether a fetch is in flight at that moment. -/

def protectPages (protection : ℕ → Protection) (copy : OpenCopy) (value : Protection) :
    ℕ → Protection :=
  fun page ↦
    if copy.start / config.pageSize ≤ page ∧ page ≤ (copy.stop - 1) / config.pageSize then value
    else protection page

/-- The chunk lies whole in the range of the copy, from `first_chunk` to before `last_chunk`. -/
def Filled (copy : OpenCopy) (chunk : ℕ) : Prop :=
  (copy.start + config.chunkBytes - 1) / config.chunkBytes ≤ chunk ∧
    chunk < copy.stop / config.chunkBytes

instance (copy : OpenCopy) (chunk : ℕ) : Decidable (Filled config copy chunk) :=
  inferInstanceAs (Decidable (_ ∧ _))

/-- `lupine_mark_host_range_clean`, for the copy of a thread. -/
def markClean (thread : ℕ) (copy : OpenCopy) : FetchState :=
  let unpinned := { st with copies := st.copies.erase thread }
  if st.deviceStale = .fetching then unpinned
  else if unpinned.copies.keys = [] ∧ st.restorePending = true then
    { unpinned with protection := st.applyFreshProtections config, restorePending := false }
  else if st.deviceStale = .invalidated ∧ st.restorePending = true then unpinned
  else
    { unpinned with
      freshChunks := fun chunk ↦
        if st.deviceStale = .invalidated ∧ Filled config copy chunk then true
        else st.freshChunks chunk
      protection := protectPages config st.protection copy .read }

/-! ## Steps -/

/-- A byte gets a new latest value on the host. -/
def store (offset : ℕ) (byte : UInt8) : FetchState :=
  { st with
    host := Function.update st.host offset byte
    latest := Function.update st.latest offset byte
    written := Function.update st.written offset true }

def step : FetchStep → Option FetchState
  | .invalidate contents =>
    if st.deviceStale ≠ .fetching ∧ st.copies.keys = [] then
      some { st with
        deviceStale := .invalidated
        freshChunks := fun _ ↦ false
        fetchSeqNext := 0
        fetchReadahead := 0
        restorePending := false
        protection := fun _ ↦ .none
        device := contents
        latest := contents
        written := fun _ ↦ false }
    else none
  | .fault offset write =>
    let protection := st.protection (offset / config.pageSize)
    if offset < config.storageSize ∧
        (protection = .none ∨ write = true ∧ protection = .read) then
      some (st.handleFault config offset)
    else none
  | .hostRead offset =>
    if offset < config.size ∧ st.protection (offset / config.pageSize) ≠ .none then some st
    else none
  | .hostWrite offset byte =>
    if offset < config.size ∧ st.protection (offset / config.pageSize) = .readWrite then
      some (st.store offset byte)
    else none
  | .fetchByte =>
    st.fetch.bind fun run ↦
      if run.next < min (run.last * config.chunkBytes) config.size then
        some { st with
          host := Function.update st.host run.next (st.device run.next)
          fetch := some { run with next := run.next + 1 } }
      else none
  | .fetchFinish =>
    st.fetch.bind fun run ↦
      if run.next < min (run.last * config.chunkBytes) config.size then none
      else some (st.finishFetch config run)
  | .prepareHostRangeWrite thread start size =>
    let copy : OpenCopy := ⟨start, min (start + size) config.size, start⟩
    if copy.start < copy.stop ∧ st.copies.lookup thread = none then
      some { st with
        copies := st.copies.insert thread copy
        protection := protectPages config st.protection copy .readWrite }
    else none
  | .payload thread byte =>
    (st.copies.lookup thread).bind fun copy ↦
      if copy.next < copy.stop ∧ st.protection (copy.next / config.pageSize) = .readWrite then
        some { st.store copy.next byte with
          copies := st.copies.insert thread { copy with next := copy.next + 1 } }
      else none
  | .markHostRangeClean thread =>
    (st.copies.lookup thread).map fun copy ↦ st.markClean config thread copy

/-- What the chunk has is what the host should see. -/
def Usable (chunk : ℕ) : Prop := st.deviceStale = .fresh ∨ st.freshChunks chunk = true

instance (chunk : ℕ) : Decidable (st.Usable chunk) := inferInstanceAs (Decidable (_ ∨ _))

end FetchState

def fetchMachine (config : FetchConfig) : Machine FetchState FetchStep := ⟨FetchState.step config⟩

/-! ## The condition

A page is busy while a run over it is in flight, or a copy to it is open that has yet to make it
usable. The condition is on what the host, the copies and the fetches do with such pages. -/

/-- The page is among those the copy has opened. -/
def OpenCopy.Touches (config : FetchConfig) (copy : OpenCopy) (page : ℕ) : Prop :=
  copy.start / config.pageSize ≤ page ∧ page ≤ (copy.stop - 1) / config.pageSize

instance (config : FetchConfig) (copy : OpenCopy) (page : ℕ) :
    Decidable (copy.Touches config page) :=
  inferInstanceAs (Decidable (_ ∧ _))

/-- All the pages of the copy are usable. -/
def FetchState.Fits (config : FetchConfig) (st : FetchState) (copy : OpenCopy) : Prop :=
  ∀ page ≤ (copy.stop - 1) / config.pageSize, copy.start / config.pageSize ≤ page →
    st.Usable (page / config.chunkPages)

instance FetchState.decidableFits (config : FetchConfig) (st : FetchState) (copy : OpenCopy) :
    Decidable (st.Fits config copy) :=
  inferInstanceAs (Decidable (∀ _ ≤ _, _))

/-- A fetch of the page is in flight, or a copy to it is open that has yet to make it usable. -/
def FetchState.Busy (config : FetchConfig) (st : FetchState) (page : ℕ) : Prop :=
  (∃ run ∈ st.fetch, run.first ≤ page / config.chunkPages ∧ page / config.chunkPages < run.last) ∨
    ∃ thread ∈ st.copies.keys, ∃ copy ∈ st.copies.lookup thread,
      copy.Touches config page ∧ ¬st.Usable (page / config.chunkPages)

instance (config : FetchConfig) (st : FetchState) (page : ℕ) : Decidable (st.Busy config page) :=
  inferInstanceAs (Decidable ((∃ _ ∈ _, _) ∨ ∃ _ ∈ _, ∃ _ ∈ _, _))

/-- The host keeps off busy pages. A copy into stale chunks fills them, begins while no fetch is in
flight and no protections are deferred, and ends with all its bytes written; until then no fetch
begins. -/
def FetchCond (config : FetchConfig) (st : FetchState) : FetchStep → Prop
  | .hostRead offset | .hostWrite offset _ => ¬st.Busy config (offset / config.pageSize)
  | .fault offset _ =>
    st.deviceStale = .invalidated → st.freshChunks (offset / config.chunkBytes) = false →
      ∀ thread ∈ st.copies.keys, ∀ copy ∈ st.copies.lookup thread, st.Fits config copy
  | .prepareHostRangeWrite _ start size =>
    let copy : OpenCopy := ⟨start, min (start + size) config.size, start⟩
    st.Fits config copy ∨ st.deviceStale = .invalidated ∧ st.restorePending = false ∧
      ∀ page ≤ (copy.stop - 1) / config.pageSize, copy.start / config.pageSize ≤ page →
        st.Usable (page / config.chunkPages) ∨
          FetchState.Filled config copy (page / config.chunkPages)
  | .markHostRangeClean thread =>
    ∀ copy ∈ st.copies.lookup thread, st.Fits config copy ∨ copy.next = copy.stop
  | _ => True

instance (config : FetchConfig) (st : FetchState) (step : FetchStep) :
    Decidable (FetchCond config st step) := by
  cases step <;> unfold FetchCond <;> infer_instance

/-! ## The invariant

Chunks of pages and of bytes agree, a copy touches the pages of its bytes and the bytes of a chunk
that it fills are among its own. From these facts about numbers follow the three that the steps
need: nothing in a run is usable, what was written is not in a run, and what can be read outside
the busy pages is usable. -/

/-- The copy fills every stale chunk it touches, and nothing will keep these from counting. -/
def FetchState.FillsGaps (config : FetchConfig) (st : FetchState) (copy : OpenCopy) : Prop :=
  st.deviceStale = .invalidated ∧ st.restorePending = false ∧
    ∀ page ≤ (copy.stop - 1) / config.pageSize, copy.start / config.pageSize ≤ page →
      st.Usable (page / config.chunkPages) ∨
        FetchState.Filled config copy (page / config.chunkPages)

/-- What can be read is usable or busy, what is usable is the latest, what was written will not be
fetched, and a run or a copy has the latest as far as it has come. -/
structure FetchInv (config : FetchConfig) (st : FetchState) : Prop where
  phase : st.fetch.isSome = true ↔ st.deviceStale = .fetching
  readable : ∀ page, st.protection page ≠ .none →
    st.Usable (page / config.chunkPages) ∨ st.Busy config page
  usable : ∀ offset < config.size, st.Usable (offset / config.chunkBytes) →
    st.host offset = st.latest offset
  kept : ∀ offset < config.size, st.written offset = true → st.Usable (offset / config.chunkBytes) ∨
    ∃ thread copy, st.copies.lookup thread = some copy ∧ copy.start ≤ offset ∧ offset < copy.stop
  device : st.deviceStale ≠ .fresh → ∀ offset < config.size, st.written offset = false →
    st.latest offset = st.device offset
  run : ∀ run, st.fetch = some run → run.first * config.chunkBytes ≤ run.next ∧
    (∀ chunk, run.first ≤ chunk → chunk < run.last → st.freshChunks chunk = false) ∧
    ∀ offset < config.size, run.first * config.chunkBytes ≤ offset → offset < run.next →
      st.host offset = st.latest offset
  copies : ∀ thread copy, st.copies.lookup thread = some copy →
    copy.start ≤ copy.next ∧ copy.stop ≤ config.size ∧
      (st.Fits config copy ∨ st.FillsGaps config copy) ∧
      ∀ offset, copy.start ≤ offset → offset < copy.next → st.host offset = st.latest offset

variable {config : FetchConfig} {st st' : FetchState} {offset chunk thread : ℕ} {byte : UInt8}
  {copy : OpenCopy} {run : FetchRun}

theorem FetchConfig.chunkBytes_pos : 0 < config.chunkBytes :=
  Nat.mul_pos config.page_pos config.chunk_pos

theorem FetchConfig.div_pageSize_div (offset : ℕ) :
    offset / config.pageSize / config.chunkPages = offset / config.chunkBytes :=
  Nat.div_div_eq_div_mul _ _ _

theorem FetchConfig.chunk_lt (h : offset < config.size) :
    offset / config.chunkBytes < config.freshChunkCount := by
  have hpos := config.chunkBytes_pos
  have hbelow : offset / config.chunkBytes * config.chunkBytes ≤ offset := Nat.div_mul_le_self _ _
  have hstorage : config.size ≤ config.storageSize := config.size_le
  rw [FetchConfig.freshChunkCount, ← Nat.succ_le_iff, Nat.le_div_iff_mul_le hpos, Nat.succ_mul]
  omega

theorem touches_of_mem (hstart : copy.start ≤ offset) (hstop : offset < copy.stop) :
    copy.Touches config (offset / config.pageSize) :=
  ⟨Nat.div_le_div_right hstart, Nat.div_le_div_right (Nat.le_sub_one_of_lt hstop)⟩

theorem FetchState.Fits.usable (h : st.Fits config copy) (hstart : copy.start ≤ offset)
    (hstop : offset < copy.stop) : st.Usable (offset / config.chunkBytes) := by
  obtain ⟨hlow, hhigh⟩ : copy.Touches config (offset / config.pageSize) :=
    touches_of_mem hstart hstop
  rw [← FetchConfig.div_pageSize_div]
  exact h _ hhigh hlow

theorem FetchState.busy_iff {page : ℕ} : st.Busy config page ↔
    (∃ run, st.fetch = some run ∧ run.first ≤ page / config.chunkPages ∧
      page / config.chunkPages < run.last) ∨
    ∃ thread copy, st.copies.lookup thread = some copy ∧ copy.Touches config page ∧
      ¬st.Usable (page / config.chunkPages) := by
  apply or_congr_right
  constructor
  · rintro ⟨thread, -, copy, hcopy, hin⟩
    exact ⟨thread, copy, hcopy, hin⟩
  · rintro ⟨thread, copy, hcopy, hin⟩
    exact ⟨thread, mem_keys_of_lookup hcopy, copy, hcopy, hin⟩

theorem staleChunks_spec {freshChunks : ℕ → Bool} {first count : ℕ} (hlow : first ≤ chunk)
    (hhigh : chunk < first + FetchState.staleChunks freshChunks first count) :
    freshChunks chunk = false := by
  induction count generalizing first with
  | zero => exact absurd hhigh (Nat.not_lt.mpr hlow)
  | succ count ih =>
    rw [FetchState.staleChunks] at hhigh
    split_ifs at hhigh with hfresh
    · exact absurd hhigh (Nat.not_lt.mpr hlow)
    · rcases Nat.eq_or_lt_of_le hlow with rfl | hlt
      · exact eq_false_of_ne_true hfresh
      · have hlow : first + 1 ≤ chunk := hlt
        exact ih hlow (by omega)

theorem mem_of_filled (h : FetchState.Filled config copy (offset / config.chunkBytes)) :
    copy.start ≤ offset ∧ offset < copy.stop := by
  obtain ⟨hlow, hhigh⟩ := h
  have hpos := config.chunkBytes_pos
  have hbelow : offset / config.chunkBytes * config.chunkBytes ≤ offset := Nat.div_mul_le_self _ _
  have habove : offset < (offset / config.chunkBytes + 1) * config.chunkBytes :=
    Nat.lt_mul_of_div_lt (Nat.lt_succ_self _) hpos
  have hstart : copy.start + config.chunkBytes - 1 <
      (offset / config.chunkBytes + 1) * config.chunkBytes :=
    Nat.lt_mul_of_div_lt (Nat.lt_succ_of_le hlow) hpos
  have hstop : (offset / config.chunkBytes + 1) * config.chunkBytes ≤ copy.stop :=
    (Nat.le_div_iff_mul_le hpos).mp hhigh
  rw [Nat.add_mul, Nat.one_mul] at hstart
  constructor <;> omega

namespace FetchInv

theorem init (host : ℕ → UInt8) : FetchInv config { host := host, latest := host } where
  phase := ⟨fun h ↦ (nomatch h), fun h ↦ (nomatch h)⟩
  readable _ _ := Or.inl (Or.inl rfl)
  usable _ _ _ := rfl
  kept _ _ h := nomatch h
  device h := absurd rfl h
  run _ h := nomatch h
  copies _ _ h := nomatch h

section

variable (h : FetchInv config st)

include h

theorem fits (hfetch : st.fetch = some run) (hlookup : st.copies.lookup thread = some copy) :
    st.Fits config copy := by
  refine (h.copies thread copy hlookup).2.2.1.resolve_right ?_
  rintro ⟨hstale, -⟩
  have hphase := h.phase.mp (by rw [hfetch]; rfl)
  exact nomatch hstale.symm.trans hphase

theorem not_usable (hfetch : st.fetch = some run) (hlow : run.first ≤ chunk)
    (hhigh : chunk < run.last) : ¬st.Usable chunk := by
  rintro (hfresh | hfresh)
  · exact nomatch hfresh.symm.trans (h.phase.mp (by rw [hfetch]; rfl))
  · exact nomatch hfresh.symm.trans ((h.run run hfetch).2.1 chunk hlow hhigh)

/-- **What was written is not fetched.** -/
theorem not_written (hfetch : st.fetch = some run) (hsize : offset < config.size)
    (hlow : run.first ≤ offset / config.chunkBytes)
    (hhigh : offset / config.chunkBytes < run.last) :
    st.written offset = false := by
  apply eq_false_of_ne_true
  intro hwritten
  rcases h.kept offset hsize hwritten with husable | ⟨thread, copy, hlookup, hstart, hstop⟩
  · exact h.not_usable hfetch hlow hhigh husable
  · exact h.not_usable hfetch hlow hhigh ((h.fits hfetch hlookup).usable hstart hstop)

theorem next_mem (hfetch : st.fetch = some run) (hnext : run.next < run.last * config.chunkBytes) :
    run.first ≤ run.next / config.chunkBytes ∧ run.next / config.chunkBytes < run.last :=
  ⟨(Nat.le_div_iff_mul_le FetchConfig.chunkBytes_pos).mpr (h.run run hfetch).1,
    (Nat.div_lt_iff_lt_mul FetchConfig.chunkBytes_pos).mpr hnext⟩

/-- What can be read and is not busy is usable. -/
theorem usable_of_not_busy (hprotection : st.protection (offset / config.pageSize) ≠ .none)
    (hbusy : ¬st.Busy config (offset / config.pageSize)) :
    st.Usable (offset / config.chunkBytes) := by
  rw [← FetchConfig.div_pageSize_div]
  exact (h.readable _ hprotection).resolve_right hbusy

/-! ## Steps keep it

One lemma for each thing that can happen to a byte or a chunk: a byte is stored, or arrives; a run
begins, or is finished; a copy opens its pages, goes on, and is marked. After an invalidation
nothing is usable and nothing is written. -/

theorem store (hplace : st.Usable (offset / config.chunkBytes) ∨ ∃ thread copy,
      st.copies.lookup thread = some copy ∧ copy.start ≤ offset ∧ offset < copy.stop) :
    FetchInv config (st.store offset byte) := by
  have hagree : ∀ offset', st.host offset' = st.latest offset' →
      Function.update st.host offset byte offset' =
        Function.update st.latest offset byte offset' := by
    intro offset' heq
    rcases eq_or_ne offset' offset with rfl | hne
    · rw [Function.update_self, Function.update_self]
    · rw [Function.update_of_ne hne, Function.update_of_ne hne, heq]
  constructor
  · exact h.phase
  · exact h.readable
  · exact fun offset' hsize husable ↦ hagree offset' (h.usable offset' hsize husable)
  · intro offset' hsize hwritten
    rcases eq_or_of_update hwritten with ⟨rfl, -⟩ | ⟨-, hwritten⟩
    · exact hplace
    · exact h.kept offset' hsize hwritten
  · intro hstale offset' hsize hwritten
    rcases eq_or_of_update hwritten with ⟨-, heq⟩ | ⟨hne, hwritten⟩
    · exact nomatch heq
    · exact (Function.update_of_ne hne _ _).trans (h.device hstale offset' hsize hwritten)
  · intro run hfetch
    obtain ⟨hnext, hstale, harrived⟩ := h.run run hfetch
    exact ⟨hnext, hstale, fun offset' hsize hlow hhigh ↦
      hagree offset' (harrived offset' hsize hlow hhigh)⟩
  · intro thread copy hlookup
    obtain ⟨hstart, hstop, hkind, hcopied⟩ := h.copies thread copy hlookup
    exact ⟨hstart, hstop, hkind, fun offset' hlow hhigh ↦
      hagree offset' (hcopied offset' hlow hhigh)⟩

theorem fetchByte (hfetch : st.fetch = some run)
    (hnext : run.next < min (run.last * config.chunkBytes) config.size) :
    FetchInv config { st with
      host := Function.update st.host run.next (st.device run.next)
      fetch := some { run with next := run.next + 1 } } := by
  obtain ⟨hlast, hsize⟩ := Nat.lt_min.mp hnext
  obtain ⟨hlow, hhigh⟩ := h.next_mem hfetch hlast
  have hphase := h.phase.mp (by rw [hfetch]; rfl)
  -- nothing was written to the byte since, so the device still has the latest
  have hlatest : st.latest run.next = st.device run.next := by
    apply h.device _ _ hsize (h.not_written hfetch hsize hlow hhigh)
    rw [hphase]
    exact fun heq ↦ (nomatch heq)
  have hagree : ∀ offset', st.host offset' = st.latest offset' →
      Function.update st.host run.next (st.device run.next) offset' = st.latest offset' := by
    intro offset' heq
    rcases eq_or_ne offset' run.next with rfl | hne
    · rw [Function.update_self, hlatest]
    · rw [Function.update_of_ne hne, heq]
  constructor
  · exact ⟨fun _ ↦ hphase, fun _ ↦ rfl⟩
  · intro page hprotection
    refine (h.readable page hprotection).imp_right ?_
    rintro (⟨run', hrun', hin⟩ | hcopy)
    · obtain rfl := Option.some.inj (hfetch.symm.trans hrun')
      exact Or.inl ⟨_, rfl, hin⟩
    · exact Or.inr hcopy
  · exact fun offset' hsize husable ↦ hagree offset' (h.usable offset' hsize husable)
  · exact h.kept
  · exact h.device
  · intro run' hrun'
    obtain rfl := Option.some.inj hrun'
    obtain ⟨hfirst, hstale, harrived⟩ := h.run run hfetch
    refine ⟨Nat.le_succ_of_le hfirst, hstale, ?_⟩
    intro offset' hsize' hlow' hhigh'
    rcases Nat.lt_succ_iff_lt_or_eq.mp hhigh' with hlt | rfl
    · exact hagree offset' (harrived offset' hsize' hlow' hlt)
    · simp only [Function.update_self, hlatest]
  · intro thread copy hlookup
    obtain ⟨hstart, hstop, hkind, hcopied⟩ := h.copies thread copy hlookup
    exact ⟨hstart, hstop, hkind, fun offset' hlow hhigh ↦
      hagree offset' (hcopied offset' hlow hhigh)⟩

theorem unprotect (husable : st.Usable (offset / config.chunkBytes)) :
    FetchInv config { st with
      protection := Function.update st.protection (offset / config.pageSize) .readWrite } := by
  refine ⟨h.phase, ?_, h.usable, h.kept, h.device, h.run, h.copies⟩
  intro page hprotection
  rcases eq_or_ne page (offset / config.pageSize) with rfl | hne
  · refine Or.inl ?_
    rw [FetchConfig.div_pageSize_div]
    exact husable
  · exact h.readable page (by simpa only [Function.update_of_ne hne] using hprotection)

theorem beginFetch (hstale : st.deviceStale = .invalidated)
    (hfits : ∀ thread copy, st.copies.lookup thread = some copy → st.Fits config copy) :
    FetchInv config (st.beginFetch config offset) := by
  -- beginning a fetch makes nothing usable and takes nothing away
  have husable : ∀ chunk, (st.beginFetch config offset).Usable chunk ↔ st.Usable chunk := by
    intro chunk
    constructor
    · rintro (hfresh | hfresh)
      · exact nomatch hfresh
      · exact Or.inr hfresh
    · rintro (hfresh | hfresh)
      · exact nomatch hstale.symm.trans hfresh
      · exact Or.inr hfresh
  have hnone : st.fetch = none := by
    rw [← Option.not_isSome_iff_eq_none]
    intro hsome
    exact nomatch hstale.symm.trans (h.phase.mp hsome)
  constructor
  · exact ⟨fun _ ↦ rfl, fun _ ↦ rfl⟩
  · intro page hprotection
    by_cases hrun : (st.fetchRun config offset).first ≤ page / config.chunkPages ∧
        page / config.chunkPages < (st.fetchRun config offset).last
    · exact Or.inr (Or.inl ⟨_, rfl, hrun⟩)
    · have hold : st.protection page ≠ .none := by
        simpa only [FetchState.beginFetch, FetchState.protectChunks, if_neg hrun] using hprotection
      refine Or.inl ((husable _).mpr ?_)
      rcases (h.readable page hold).imp_right FetchState.busy_iff.mp with
        husable | ⟨run, hrun, -⟩ | ⟨thread, copy, hcopy, hin, hout⟩
      · exact husable
      · exact nomatch hnone.symm.trans hrun
      · exact absurd (hfits thread copy hcopy page hin.2 hin.1) hout
  · exact fun offset' hsize husable' ↦ h.usable offset' hsize ((husable _).mp husable')
  · intro offset' hsize hwritten
    exact (h.kept offset' hsize hwritten).imp_left (husable _).mpr
  · intro _
    apply h.device
    rw [hstale]
    exact fun heq ↦ (nomatch heq)
  · intro run hrun
    obtain rfl := Option.some.inj hrun
    refine ⟨le_rfl, fun chunk hlow hhigh ↦ staleChunks_spec hlow hhigh, ?_⟩
    -- no byte has come yet, so nothing is said of the content
    exact fun offset' _ hlow hhigh ↦ absurd hhigh (Nat.not_lt.mpr hlow)
  · intro thread copy hlookup
    obtain ⟨hstart, hstop, -, hcopied⟩ := h.copies thread copy hlookup
    refine ⟨hstart, hstop, Or.inl ?_, hcopied⟩
    exact fun page hhigh hlow ↦ (husable _).mpr (hfits thread copy hlookup page hhigh hlow)

/-- A copy opens its pages. -/
theorem prepare (hnone : st.copies.lookup thread = none) (hstop : copy.stop ≤ config.size)
    (hnext : copy.next = copy.start)
    (hkind : st.Fits config copy ∨ st.FillsGaps config copy) :
    FetchInv config { st with
      copies := st.copies.insert thread copy
      protection := FetchState.protectPages config st.protection copy .readWrite } := by
  have hother : ∀ thread' copy', st.copies.lookup thread' = some copy' →
      (st.copies.insert thread copy).lookup thread' = some copy' := by
    intro thread' copy' hcopy'
    refine lookup_insert_eq_some.mpr (Or.inr ⟨?_, hcopy'⟩)
    rintro rfl
    exact nomatch hnone.symm.trans hcopy'
  constructor
  · exact h.phase
  · intro page hprotection
    by_cases hin : copy.start / config.pageSize ≤ page ∧ page ≤ (copy.stop - 1) / config.pageSize
    · by_cases husable : st.Usable (page / config.chunkPages)
      · exact Or.inl husable
      · refine Or.inr (FetchState.busy_iff.mpr (Or.inr ⟨thread, copy, ?_, hin, husable⟩))
        exact AList.lookup_insert _
    · have hold : st.protection page ≠ .none := by
        simpa only [FetchState.protectPages, if_neg hin] using hprotection
      refine (h.readable page hold).imp_right fun hbusy ↦ FetchState.busy_iff.mpr ?_
      rcases FetchState.busy_iff.mp hbusy with hrun | ⟨thread', copy', hcopy', hin⟩
      · exact Or.inl hrun
      · exact Or.inr ⟨thread', copy', hother thread' copy' hcopy', hin⟩
  · exact h.usable
  · intro offset' hsize hwritten
    refine (h.kept offset' hsize hwritten).imp_right ?_
    rintro ⟨thread', copy', hcopy', hin⟩
    exact ⟨thread', copy', hother thread' copy' hcopy', hin⟩
  · exact h.device
  · exact h.run
  · intro thread' copy' hlookup
    rcases lookup_insert_eq_some.mp hlookup with ⟨-, rfl⟩ | ⟨-, hlookup⟩
    · refine ⟨Nat.le_of_eq hnext.symm, hstop, hkind, ?_⟩
      exact fun offset' hlow hhigh ↦ absurd (hnext ▸ hhigh) (Nat.not_lt.mpr hlow)
    · exact h.copies thread' copy' hlookup

theorem advance (hlookup : st.copies.lookup thread = some copy)
    (hbyte : st.host copy.next = st.latest copy.next) :
    FetchInv config { st with
      copies := st.copies.insert thread { copy with next := copy.next + 1 } } := by
  have hsame : ∀ thread' copy', st.copies.lookup thread' = some copy' →
      ∃ copy'', (st.copies.insert thread { copy with next := copy.next + 1 }).lookup thread' =
        some copy'' ∧ copy''.start = copy'.start ∧ copy''.stop = copy'.stop := by
    intro thread' copy' hcopy'
    rcases eq_or_ne thread' thread with rfl | hne
    · obtain rfl := Option.some.inj (hlookup.symm.trans hcopy')
      exact ⟨_, AList.lookup_insert _, rfl, rfl⟩
    · exact ⟨copy', (AList.lookup_insert_ne hne).trans hcopy', rfl, rfl⟩
  constructor
  · exact h.phase
  · intro page hprotection
    refine (h.readable page hprotection).imp_right fun hbusy ↦ FetchState.busy_iff.mpr ?_
    rcases FetchState.busy_iff.mp hbusy with hrun | ⟨thread', copy', hcopy', hin, hout⟩
    · exact Or.inl hrun
    · obtain ⟨copy'', hcopy'', hstart, hstop⟩ := hsame thread' copy' hcopy'
      refine Or.inr ⟨thread', copy'', hcopy'', ?_, hout⟩
      rwa [OpenCopy.Touches, hstart, hstop]
  · exact h.usable
  · intro offset' hsize hwritten
    refine (h.kept offset' hsize hwritten).imp_right ?_
    rintro ⟨thread', copy', hcopy', hlow, hhigh⟩
    obtain ⟨copy'', hcopy'', hstart, hstop⟩ := hsame thread' copy' hcopy'
    exact ⟨thread', copy'', hcopy'', hstart ▸ hlow, hstop ▸ hhigh⟩
  · exact h.device
  · exact h.run
  · intro thread' copy' hlookup'
    rcases lookup_insert_eq_some.mp hlookup' with ⟨-, rfl⟩ | ⟨-, hlookup'⟩
    · obtain ⟨hstart, hstop, hkind, hcopied⟩ := h.copies thread copy hlookup
      refine ⟨Nat.le_succ_of_le hstart, hstop, hkind, ?_⟩
      intro offset' hlow hhigh
      rcases Nat.lt_succ_iff_lt_or_eq.mp hhigh with hlt | rfl
      · exact hcopied offset' hlow hlt
      · exact hbyte
    · exact h.copies thread' copy' hlookup'

theorem unpin (hlookup : st.copies.lookup thread = some copy) (hfits : st.Fits config copy) :
    FetchInv config { st with copies := st.copies.erase thread } := by
  constructor
  · exact h.phase
  · intro page hprotection
    by_cases husable : st.Usable (page / config.chunkPages)
    · exact Or.inl husable
    · refine (h.readable page hprotection).imp_right fun hbusy ↦ FetchState.busy_iff.mpr ?_
      rcases FetchState.busy_iff.mp hbusy with hrun | ⟨thread', copy', hcopy', hin, hout⟩
      · exact Or.inl hrun
      · refine Or.inr ⟨thread', copy', lookup_erase_eq_some.mpr ⟨?_, hcopy'⟩, hin, hout⟩
        rintro rfl
        obtain rfl := Option.some.inj (hlookup.symm.trans hcopy')
        exact husable (hfits page hin.2 hin.1)
  · exact h.usable
  · intro offset' hsize hwritten
    rcases h.kept offset' hsize hwritten with husable | ⟨thread', copy', hcopy', hlow, hhigh⟩
    · exact Or.inl husable
    · rcases eq_or_ne thread' thread with rfl | hne
      · obtain rfl := Option.some.inj (hlookup.symm.trans hcopy')
        exact Or.inl (hfits.usable hlow hhigh)
      · exact Or.inr ⟨thread', copy', lookup_erase_eq_some.mpr ⟨hne, hcopy'⟩, hlow, hhigh⟩
  · exact h.device
  · exact h.run
  · exact fun thread' copy' hlookup' ↦ h.copies thread' copy' (lookup_erase_eq_some.mp hlookup').2

theorem copied (hlookup : st.copies.lookup thread = some copy)
    (hdone : st.Fits config copy ∨ copy.next = copy.stop) (hlow : copy.start ≤ offset)
    (hhigh : offset < copy.stop) : st.host offset = st.latest offset := by
  obtain ⟨-, hstop, -, hcopied⟩ := h.copies thread copy hlookup
  rcases hdone with hfits | hnext
  · exact h.usable offset (Nat.lt_of_lt_of_le hhigh hstop) (hfits.usable hlow hhigh)
  · exact hcopied offset hlow (hnext ▸ hhigh)

/-- A copy is marked with no fetch in flight: the chunks it fills become usable. -/
theorem mark (hlookup : st.copies.lookup thread = some copy) (hstale : st.deviceStale ≠ .fetching)
    (hdone : st.Fits config copy ∨ copy.next = copy.stop) :
    FetchInv config { st with
      copies := st.copies.erase thread
      freshChunks := fun chunk ↦
        if st.deviceStale = .invalidated ∧ FetchState.Filled config copy chunk then true
        else st.freshChunks chunk
      protection := FetchState.protectPages config st.protection copy .read } := by
  have hmono : ∀ chunk, st.Usable chunk → st.deviceStale = .fresh ∨
      (if st.deviceStale = .invalidated ∧ FetchState.Filled config copy chunk then true
        else st.freshChunks chunk) = true := by
    rintro chunk (hfresh | hfresh)
    · exact Or.inl hfresh
    · exact Or.inr (ite_eq_left_iff.mpr fun _ ↦ hfresh)
  -- every page the copy touches is usable afterwards: it was before, or the copy fills its chunk
  have htouched : ∀ page ≤ (copy.stop - 1) / config.pageSize, copy.start / config.pageSize ≤ page →
      st.deviceStale = .fresh ∨ (if st.deviceStale = .invalidated ∧
        FetchState.Filled config copy (page / config.chunkPages) then true
          else st.freshChunks (page / config.chunkPages)) = true := by
    intro page hhigh hlow
    rcases (h.copies thread copy hlookup).2.2.1 with hfits | ⟨hinvalidated, -, hgaps⟩
    · exact hmono _ (hfits page hhigh hlow)
    · rcases hgaps page hhigh hlow with husable | hfilled
      · exact hmono _ husable
      · exact Or.inr (if_pos ⟨hinvalidated, hfilled⟩)
  constructor
  · exact h.phase
  · intro page hprotection
    by_cases hin : copy.start / config.pageSize ≤ page ∧ page ≤ (copy.stop - 1) / config.pageSize
    · exact Or.inl (htouched page hin.2 hin.1)
    · have hold : st.protection page ≠ .none := by
        simpa only [FetchState.protectPages, if_neg hin] using hprotection
      -- a page outside of the copy is readable for the reason it was before
      rcases (h.readable page hold).imp_right FetchState.busy_iff.mp with
        husable | hrun | ⟨thread', copy', hcopy', hin', hout⟩
      · exact Or.inl (hmono _ husable)
      · exact Or.inr (FetchState.busy_iff.mpr (Or.inl hrun))
      · refine or_iff_not_imp_left.mpr fun hout' ↦ FetchState.busy_iff.mpr (Or.inr
          ⟨thread', copy', lookup_erase_eq_some.mpr ⟨?_, hcopy'⟩, hin', hout'⟩)
        rintro rfl
        obtain rfl := Option.some.inj (hlookup.symm.trans hcopy')
        exact hin hin'
  · rintro offset' hsize (hfresh | hfresh)
    · exact h.usable offset' hsize (Or.inl hfresh)
    · simp only at hfresh
      split_ifs at hfresh with hfilled
      -- a chunk that has become fresh lies within the copy, which has put its bytes there
      · obtain ⟨hlow, hhigh⟩ := mem_of_filled hfilled.2
        exact h.copied hlookup hdone hlow hhigh
      · exact h.usable offset' hsize (Or.inr hfresh)
  · intro offset' hsize hwritten
    rcases h.kept offset' hsize hwritten with husable | ⟨thread', copy', hcopy', hlow, hhigh⟩
    · exact Or.inl (hmono _ husable)
    · rcases eq_or_ne thread' thread with rfl | hne
      · obtain rfl := Option.some.inj (hlookup.symm.trans hcopy')
        obtain ⟨hfirst, hlast⟩ : copy.Touches config (offset' / config.pageSize) :=
          touches_of_mem hlow hhigh
        have husable := htouched _ hlast hfirst
        rw [FetchConfig.div_pageSize_div] at husable
        exact Or.inl husable
      · exact Or.inr ⟨thread', copy', lookup_erase_eq_some.mpr ⟨hne, hcopy'⟩, hlow, hhigh⟩
  · exact h.device
  · intro run hrun
    exact absurd (h.phase.mp (Option.isSome_of_eq_some hrun)) hstale
  · intro thread' copy' hlookup'
    obtain ⟨hstart, hstop, hkind, hcopied⟩ :=
      h.copies thread' copy' (lookup_erase_eq_some.mp hlookup').2
    refine ⟨hstart, hstop, ?_, hcopied⟩
    refine hkind.imp (fun hfits page hhigh hlow ↦ hmono _ (hfits page hhigh hlow)) ?_
    rintro ⟨hinvalidated, hpending, hgaps⟩
    exact ⟨hinvalidated, hpending, fun page hhigh hlow ↦
      (hgaps page hhigh hlow).imp_left (hmono _)⟩

theorem restore (hempty : st.copies.keys = []) :
    FetchInv config { st with
      protection := st.applyFreshProtections config
      restorePending := false } := by
  refine ⟨h.phase, ?_, h.usable, h.kept, h.device, h.run, ?_⟩
  · intro page hprotection
    refine Or.inl (Or.inr ?_)
    by_contra hstale
    exact hprotection (if_neg hstale)
  · intro thread copy hlookup
    have hmem := mem_keys_of_lookup hlookup
    rw [hempty] at hmem
    exact nomatch hmem

theorem fetched (hfetch : st.fetch = some run)
    (hnext : ¬run.next < min (run.last * config.chunkBytes) config.size) (seqNext : ℕ)
    (protection : ℕ → Protection) (restorePending : Bool) (freshChunks : ℕ → Bool)
    (hfresh : ∀ chunk, freshChunks chunk =
      if run.first ≤ chunk ∧ chunk < run.last then true else st.freshChunks chunk)
    (hprotection : ∀ page, protection page ≠ .none →
      st.protection page ≠ .none ∨ freshChunks (page / config.chunkPages) = true) :
    FetchInv config { st with
      freshChunks := freshChunks
      fetchSeqNext := seqNext
      deviceStale :=
        if (List.range config.freshChunkCount).all freshChunks then .fresh else .invalidated
      fetch := none
      protection := protection
      restorePending := restorePending } := by
  have hphase := h.phase.mp (Option.isSome_of_eq_some hfetch)
  -- what was usable stays so; nothing was fresh as a whole while the fetch ran
  have hmono : ∀ chunk, st.Usable chunk → freshChunks chunk = true := by
    rintro chunk (hold | hold)
    · exact nomatch hphase.symm.trans hold
    · rw [hfresh]
      exact ite_eq_left_iff.mpr fun _ ↦ hold
  -- a chunk of the run is fresh because all of its bytes have come
  have hbytes : ∀ offset' < config.size, freshChunks (offset' / config.chunkBytes) = true →
      st.host offset' = st.latest offset' := by
    intro offset' hsize hchunk
    rw [hfresh] at hchunk
    split_ifs at hchunk with hin
    · have hpos := config.chunkBytes_pos
      have hlow : run.first * config.chunkBytes ≤ offset' :=
        (Nat.le_div_iff_mul_le hpos).mp hin.1
      have hhigh : offset' < run.last * config.chunkBytes := Nat.lt_mul_of_div_lt hin.2 hpos
      refine (h.run run hfetch).2.2 offset' hsize hlow ?_
      exact Nat.lt_of_lt_of_le (Nat.lt_min.mpr ⟨hhigh, hsize⟩) (Nat.not_lt.mp hnext)
    · exact h.usable offset' hsize (Or.inr hchunk)
  -- the fetch is over, so what was busy with it has to be usable by now
  constructor
  · refine ⟨fun hsome ↦ (nomatch hsome), ?_⟩
    intro hfetching
    simp only at hfetching
    split_ifs at hfetching
  · intro page hopen
    refine Or.inl (Or.inr ?_)
    rcases hprotection page hopen with hold | hchunk
    · rcases (h.readable page hold).imp_right FetchState.busy_iff.mp with
        husable | ⟨run', hrun', hin⟩ | ⟨thread, copy, hcopy, hin, hout⟩
      · exact hmono _ husable
      -- the page was busy with this run, and its chunk is fresh now
      · obtain rfl := Option.some.inj (hfetch.symm.trans hrun')
        exact (hfresh _).trans (if_pos hin)
      · exact absurd (h.fits hfetch hcopy page hin.2 hin.1) hout
    · exact hchunk
  · rintro offset' hsize (hall | hchunk)
    · simp only at hall
      split_ifs at hall with hevery
      exact hbytes offset' hsize
        (List.all_eq_true.mp hevery _ (List.mem_range.mpr (FetchConfig.chunk_lt hsize)))
    · exact hbytes offset' hsize hchunk
  · intro offset' hsize hwritten
    exact (h.kept offset' hsize hwritten).imp_left fun husable ↦ Or.inr (hmono _ husable)
  · intro _
    apply h.device
    rw [hphase]
    exact fun heq ↦ (nomatch heq)
  · exact fun _ hrun ↦ nomatch hrun
  · intro thread copy hlookup
    obtain ⟨hstart, hstop, -, hcopied⟩ := h.copies thread copy hlookup
    exact ⟨hstart, hstop, Or.inl fun page hhigh hlow ↦
      Or.inr (hmono _ (h.fits hfetch hlookup page hhigh hlow)), hcopied⟩

theorem finishFetch (hfetch : st.fetch = some run)
    (hnext : ¬run.next < min (run.last * config.chunkBytes) config.size) :
    FetchInv config (st.finishFetch config run) := by
  rw [FetchState.finishFetch]
  simp only
  split
  · split
    · apply h.fetched hfetch hnext
      · exact fun _ ↦ rfl
      · intro page hopen
        refine Or.inr ?_
        by_contra hstale
        exact hopen (if_neg hstale)
    · apply h.fetched hfetch hnext
      · exact fun _ ↦ rfl
      · intro page hopen
        by_cases hin : run.first ≤ page / config.chunkPages ∧ page / config.chunkPages < run.last
        · exact Or.inr (if_pos hin)
        · refine Or.inl ?_
          simpa only [FetchState.protectChunks, if_neg hin] using hopen
  · apply h.fetched hfetch hnext
    · exact fun _ ↦ rfl
    · exact fun _ hopen ↦ Or.inl hopen

theorem markClean (hlookup : st.copies.lookup thread = some copy)
    (hdone : st.Fits config copy ∨ copy.next = copy.stop) :
    FetchInv config (st.markClean config thread copy) := by
  -- a copy that fills gaps is marked while nothing is deferred
  have hfits : st.deviceStale ≠ .invalidated ∨ st.restorePending = true → st.Fits config copy := by
    intro hother
    refine (h.copies thread copy hlookup).2.2.1.resolve_right ?_
    rintro ⟨hinvalidated, hpending, -⟩
    rcases hother with hne | hpending'
    · exact hne hinvalidated
    · exact nomatch hpending.symm.trans hpending'
  rw [FetchState.markClean]
  split_ifs with hfetching hlast hpending
  · apply h.unpin hlookup (hfits (Or.inl ?_))
    rw [hfetching]
    exact fun heq ↦ (nomatch heq)
  · exact (h.unpin hlookup (hfits (Or.inr hlast.2))).restore hlast.1
  · exact h.unpin hlookup (hfits (Or.inr hpending.2))
  · exact h.mark hlookup hfetching hdone

end

theorem invalidate (h : FetchInv config st) (hstale : st.deviceStale ≠ .fetching)
    (hempty : st.copies.keys = []) (contents : ℕ → UInt8) : FetchInv config { st with
      deviceStale := .invalidated
      freshChunks := fun _ ↦ false
      fetchSeqNext := 0
      fetchReadahead := 0
      restorePending := false
      protection := fun _ ↦ .none
      device := contents
      latest := contents
      written := fun _ ↦ false } := by
  have hnone : ∀ run, st.fetch ≠ some run :=
    fun run hrun ↦ hstale (h.phase.mp (Option.isSome_of_eq_some hrun))
  constructor
  · refine ⟨?_, fun heq ↦ (nomatch heq)⟩
    exact fun hsome ↦ absurd (h.phase.mp hsome) hstale
  · exact fun _ hprotection ↦ absurd rfl hprotection
  · rintro offset' - (hfresh | hfresh)
    · exact nomatch hfresh
    · exact nomatch hfresh
  · exact fun _ _ hwritten ↦ nomatch hwritten
  · exact fun _ _ _ _ ↦ rfl
  · exact fun run hrun ↦ absurd hrun (hnone run)
  · intro thread copy hlookup
    have hmem := mem_keys_of_lookup hlookup
    rw [hempty] at hmem
    exact nomatch hmem

theorem step (h : FetchInv config st) {step : FetchStep} (hcond : FetchCond config st step)
    (hstep : st.step config step = some st') : FetchInv config st' := by
  cases step with
  | invalidate contents =>
    obtain ⟨⟨hstale, hempty⟩, rfl⟩ := Option.ite_some_none_eq_some.mp hstep
    exact h.invalidate hstale hempty contents
  | fault offset write =>
    obtain ⟨-, rfl⟩ := Option.ite_some_none_eq_some.mp hstep
    rw [FetchState.handleFault]
    split_ifs with hstale hfetching
    · exact h
    -- stale, and nothing is being fetched: the fault begins a fetch
    · have hinvalidated : st.deviceStale = .invalidated := by
        cases hphase : st.deviceStale with
        | fresh => exact absurd hphase hstale.1
        | invalidated => rfl
        | fetching => exact absurd hphase hfetching
      apply h.beginFetch hinvalidated
      exact fun thread copy hlookup ↦ hcond hinvalidated hstale.2 thread
        (mem_keys_of_lookup hlookup) copy hlookup
    -- the page's chunk is fresh, so it may be opened without a fetch
    · apply h.unprotect
      rcases not_and_or.mp hstale with hfresh | hfresh
      · exact Or.inl (not_not.mp hfresh)
      · exact Or.inr (eq_true_of_ne_false hfresh)
  | hostRead offset =>
    obtain ⟨-, heq⟩ := Option.ite_none_right_eq_some.mp hstep
    exact Option.some.inj heq ▸ h
  | hostWrite offset byte =>
    obtain ⟨⟨-, hprotection⟩, rfl⟩ := Option.ite_some_none_eq_some.mp hstep
    apply h.store (Or.inl (h.usable_of_not_busy ?_ hcond))
    rw [hprotection]
    exact fun heq ↦ (nomatch heq)
  | fetchByte =>
    obtain ⟨run, hfetch, hstep⟩ := Option.bind_eq_some_iff.mp hstep
    obtain ⟨hnext, rfl⟩ := Option.ite_some_none_eq_some.mp hstep
    exact h.fetchByte hfetch hnext
  | fetchFinish =>
    obtain ⟨run, hfetch, hstep⟩ := Option.bind_eq_some_iff.mp hstep
    obtain ⟨hnext, heq⟩ := Option.ite_none_left_eq_some.mp hstep
    obtain rfl := Option.some.inj heq
    exact h.finishFetch hfetch hnext
  | prepareHostRangeWrite thread start size =>
    obtain ⟨⟨-, hnone⟩, rfl⟩ := Option.ite_some_none_eq_some.mp hstep
    exact h.prepare hnone (Nat.min_le_right _ _) rfl hcond
  | payload thread byte =>
    obtain ⟨copy, hlookup, hstep⟩ := Option.bind_eq_some_iff.mp hstep
    obtain ⟨⟨hnext, -⟩, rfl⟩ := Option.ite_some_none_eq_some.mp hstep
    have hstarted := (h.copies thread copy hlookup).1
    apply (h.store (Or.inr ⟨thread, copy, hlookup, hstarted, hnext⟩)).advance hlookup
    simp only [FetchState.store, Function.update_self]
  | markHostRangeClean thread =>
    obtain ⟨copy, hlookup, heq⟩ := Option.map_eq_some_iff.mp hstep
    exact heq ▸ h.markClean hlookup (hcond copy hlookup)

end FetchInv

/-! ## What the host reads -/

/-- **The host reads the latest.** In every run in which the host keeps off busy pages, copies into
stale chunks fill them undisturbed, and no fetch begins meanwhile: whenever the host reads without a
fault, the page it reads holds the latest of every byte; and the bytes that fetches bring replace
nothing that was written since the invalidation. -/
theorem host_reads_latest (config : FetchConfig) (host : ℕ → UInt8) (steps : List FetchStep)
    (st : FetchState)
    (hrun : ((fetchMachine config).restrict (FetchCond config)).run { host := host, latest := host }
      steps = some st) :
    (∀ read st', ((fetchMachine config).restrict (FetchCond config)).step st (.hostRead read)
        = some st' →
      ∀ offset < config.size, offset / config.pageSize = read / config.pageSize →
        st.host offset = st.latest offset) ∧
    ∀ st', (fetchMachine config).step st .fetchByte = some st' →
      ∀ offset, st.written offset = true → st'.host offset = st.host offset := by
  have hinv : FetchInv config st := by
    refine Machine.run_invariant _ ?_ (FetchInv.init host) hrun
    intro st step st' hinv hstep
    obtain ⟨hcond, hstep⟩ := Machine.step_restrict.mp hstep
    exact hinv.step hcond hstep
  constructor
  · intro read st' hstep offset hsize hpage
    obtain ⟨hbusy, hstep⟩ := Machine.step_restrict.mp hstep
    obtain ⟨⟨-, hprotection⟩, -⟩ := Option.ite_none_right_eq_some.mp hstep
    exact hinv.usable offset hsize (hinv.usable_of_not_busy (hpage ▸ hprotection) (hpage ▸ hbusy))
  · intro st' hstep offset hwritten
    obtain ⟨run, hfetch, hstep⟩ := Option.bind_eq_some_iff.mp hstep
    obtain ⟨hnext, rfl⟩ := Option.ite_some_none_eq_some.mp hstep
    obtain ⟨hlast, hsize⟩ := Nat.lt_min.mp hnext
    obtain ⟨hlow, hhigh⟩ := hinv.next_mem hfetch hlast
    refine Function.update_of_ne ?_ _ _
    rintro rfl
    exact nomatch hwritten.symm.trans (hinv.not_written hfetch hsize hlow hhigh)

/-- The memory is invalidated; the host reads and then writes a byte, and a copy brings another. -/
def fetchRunSteps : List FetchStep :=
  [.invalidate fun _ ↦ 5, .fault 1 false, .fetchByte, .fetchByte, .fetchByte, .fetchFinish,
    .fault 1 true, .hostWrite 1 7, .prepareHostRangeWrite 0 2 1, .payload 0 9,
    .markHostRangeClean 0]

/-- After these steps the host reads byte 2, and byte 1 of the same page is what it wrote. -/
theorem host_reads_latest_written :
    ∃ st, ((fetchMachine { pageCount := 1, size := 3 }).restrict
        (FetchCond { pageCount := 1, size := 3 })).run { host := fun _ ↦ 0, latest := fun _ ↦ 0 }
          fetchRunSteps = some st ∧ st.host 1 = 7 := by
  have hpossible : (((fetchMachine { pageCount := 1, size := 3 }).restrict
      (FetchCond { pageCount := 1, size := 3 })).run { host := fun _ ↦ 0, latest := fun _ ↦ 0 }
        fetchRunSteps).any fun st ↦
          (((fetchMachine { pageCount := 1, size := 3 }).restrict
            (FetchCond { pageCount := 1, size := 3 })).step st (.hostRead 2)).isSome &&
          st.latest 1 == 7 := by decide
  obtain ⟨st, hrun, hst⟩ := (Option.any_eq_true _ _).mp hpossible
  rw [Bool.and_eq_true, beq_iff_eq] at hst
  obtain ⟨st', hread⟩ := Option.isSome_iff_exists.mp hst.1
  exact ⟨st, hrun,
    ((host_reads_latest _ _ _ st hrun).1 2 st' hread 1 (by decide) (by decide)).trans hst.2⟩

/-- **A copy into part of a chunk.** Its page can be read when it is done, but the rest of the page
is as it was before the invalidation; and a fetch of the chunk overwrites what the copy brought. A
fetch opens its pages before their bytes are there. -/
theorem partial_copy_leaves_stale_bytes :
    ((fetchMachine { pageCount := 2, size := 8192 }).run {} [.invalidate fun _ ↦ 5,
        .prepareHostRangeWrite 0 0 1, .payload 0 7, .markHostRangeClean 0, .hostRead 1]).any
      (fun st ↦ decide (st.protection 0 = .read ∧ st.copies.keys = [] ∧ st.fetch = none ∧
        st.host 1 = 0 ∧ st.latest 1 = 5)) = true ∧
    ((fetchMachine { pageCount := 2, size := 8192 }).run {} [.invalidate fun _ ↦ 5,
        .prepareHostRangeWrite 0 0 1, .payload 0 7, .markHostRangeClean 0, .fault 4096 false,
        .fetchByte]).any (fun st ↦
          decide (st.written 0 = true ∧ st.latest 0 = 7 ∧ st.host 0 = 5)) = true ∧
    ((fetchMachine { pageCount := 2, size := 8192 }).run {} [.invalidate fun _ ↦ 5, .fault 0 false,
        .hostRead 0]).any (fun st ↦ decide (st.host 0 = 0 ∧ st.latest 0 = 5)) = true := by
  decide

end Lupine
