import Lupine.Cuda
import Lupine.Foundation.Runs

/-!
# The batches of a flush

A flush of a route sorts the ranges that it took, merges them, protects what is merged and sends it.
A range has a header that says where the bytes go on the server, and up to 1024 ranges go into one
request. The last page of an allocation may be longer than what is left of it: what is sent is cut
at the size of the allocation.

## Ranges and pages

How the entries get into the queue and out of it, beside the handlers, and how a flush that fails
marks allocations, is `Lupine.Mapped.DirtyQueue`. Here the flush has its entries: each is one page,
in any order and any number of times, and an allocation that is marked adds all its storage. Host
memory is what it is when the bytes are sent.

## Points

A range is read as the list of its points, which are pairs of an allocation and an offset. Merging
keeps the set of points and puts them in order, clipping keeps those within the size, and a batch is
a piece of the list. So what goes out is determined by the points alone: they are the dirty bytes in
order, each once.
-/

namespace Lupine

open Foundation

/-! ## Allocations and ranges

An entry of the queue is one page of an allocation. A mark stands for all of the storage. -/

/-- A tracked allocation: its storage is whole pages. -/
structure TrackedAllocation where
  hostBase : ℕ
  size : ℕ
  pageSize : ℕ
  pageCount : ℕ
  serverHostPtr : CUdeviceptr
  pageSize_pos : 0 < pageSize
  pageCount_pos : 0 < pageCount
  size_le : size ≤ pageCount * pageSize
  deriving DecidableEq

namespace TrackedAllocation

/-- `storage_size`. -/
def storageSize (a : TrackedAllocation) : ℕ := a.pageCount * a.pageSize

/-- The entry that the handler of a fault writes. -/
def pageRange (a : TrackedAllocation) (page : ℕ) : Run TrackedAllocation :=
  ⟨a, a.hostBase + page * a.pageSize, a.hostBase + page * a.pageSize + a.pageSize⟩

def storageRange (a : TrackedAllocation) : Run TrackedAllocation :=
  ⟨a, a.hostBase, a.hostBase + a.storageSize⟩

end TrackedAllocation

/-- `lupine_dirty_host_range`. -/
abbrev DirtyRange := Run TrackedAllocation

/-- An allocation in the map, with what the flush looks at. -/
structure MappedAllocation where
  allocation : TrackedAllocation
  trackingEnabled : Bool
  routeId : ℤ
  retiring : Bool
  fullDirty : Bool
  deriving DecidableEq

/-- What a flush begins with: the allocations, the ready entries, and the mark. -/
structure DirtyHostPages where
  routeId : ℤ
  allocations : List MappedAllocation
  entries : List DirtyRange
  fullDirtyPending : Bool
  sorted : allocations.Pairwise fun m n ↦ m.allocation.hostBase < n.allocation.hostBase
  mapped : ∀ r ∈ entries, ∃ m ∈ allocations, m.allocation = r.line
  page : ∀ r ∈ entries, ∃ page < r.line.pageCount, r = r.line.pageRange page

/-! ## The flush

The loop over the merged ranges sends a batch whenever one is full. How the calls turn out is given
by the number of requests that went out before. -/

namespace DirtyHostPages

variable (pages : DirtyHostPages)

/-- The allocation is marked, and the flush takes the mark. -/
def TakesFullDirty (m : MappedAllocation) : Prop :=
  pages.fullDirtyPending = true ∧ m.trackingEnabled = true ∧ m.routeId = pages.routeId ∧
    m.retiring = false ∧ m.fullDirty = true

instance (m : MappedAllocation) : Decidable (pages.TakesFullDirty m) :=
  inferInstanceAs (Decidable (_ ∧ _))

/-- `ranges`: the entries, then the storage of the allocations that are marked. -/
def ranges : List DirtyRange :=
  pages.entries ++ (pages.allocations.filter fun m ↦ pages.TakesFullDirty m).map
    fun m ↦ m.allocation.storageRange

end DirtyHostPages

/-- The comparison that `ranges` is sorted by. -/
def rangeLess (r s : DirtyRange) : Bool :=
  if r.line ≠ s.line then decide (r.line.hostBase < s.line.hostBase)
  else if r.start ≠ s.start then decide (r.start < s.start)
  else decide (r.stop < s.stop)

/-- `merged`. -/
def mergedRanges (ranges : List DirtyRange) : List DirtyRange :=
  mergeRuns (ranges.mergeSort fun r s ↦ !rangeLess s r)

/-- A range of a request: the two words of its header, and where its bytes are read. -/
structure FlushedRange where
  dst : CUdeviceptr
  bytes : ℕ
  source : HostPtr
  deriving DecidableEq, Repr

/-- What is sent of a merged range, if any of it is in the allocation. -/
def flushedRange (range : DirtyRange) : Option FlushedRange :=
  let offset := range.start - range.line.hostBase
  if range.line.size ≤ offset then none
  else some ⟨devAdd range.line.serverHostPtr offset,
    min (range.stop - range.start) (range.line.size - offset), range.start⟩

/-- `LUPINE_MANAGED_HOST_FLUSH_BATCH_RANGES`. -/
def flushBatchRanges : ℕ := 1024

/-- How the calls of a flush turn out: whether a range can be protected, whether there is a
connection, and whether a request goes out, given how many went out before. -/
structure FlushCalls where
  protect : DirtyRange → Bool
  connected : Bool
  send : ℕ → List FlushedRange → Bool

/-- `send_batch`, with the requests that have gone out. -/
def sendBatch (calls : FlushCalls) (batch : List FlushedRange) (sent : List (List FlushedRange)) :
    CUresult × List (List FlushedRange) :=
  if batch.length = 0 then (.success, sent)
  else if calls.send sent.length batch then (.success, sent ++ [batch])
  else (.errorDeviceUnavailable, sent)

def sendRanges (calls : FlushCalls) : List DirtyRange → List FlushedRange →
    List (List FlushedRange) → CUresult × List (List FlushedRange)
  | [], batch, sent => sendBatch calls batch sent
  | range :: rest, batch, sent =>
    match flushedRange range with
    | none => sendRanges calls rest batch sent
    | some flushed =>
      if (batch ++ [flushed]).length = flushBatchRanges then
        let (result, sent) := sendBatch calls (batch ++ [flushed]) sent
        if result ≠ .success then (result, sent) else sendRanges calls rest [] sent
      else sendRanges calls rest (batch ++ [flushed]) sent

/-- `lupine_flush_dirty_host_pages_to_route`: what it returns, and the requests that went out. -/
def flushDirtyHostPagesToRoute (calls : FlushCalls) (pages : DirtyHostPages) :
    CUresult × List (List FlushedRange) :=
  if pages.ranges = [] then (.success, [])
  else if (mergedRanges pages.ranges).any fun range ↦ !calls.protect range then (.error 999, [])
  else if calls.connected = false then (.errorDeviceUnavailable, [])
  else sendRanges calls (mergedRanges pages.ranges) [] []

/-! ## What is to be sent

Dirty is said of a byte: its page has an entry, or its allocation is marked and the flush takes the
mark. -/

/-- The bytes of a request, and where they go on the server. -/
def FlushedRange.content (memory : HostPtr → UInt8) (range : FlushedRange) :
    List (CUdeviceptr × UInt8) :=
  (List.range range.bytes).map fun i ↦ (devAdd range.dst i, memory (range.source + i))

namespace DirtyHostPages

variable (pages : DirtyHostPages)

/-- A byte is dirty if its page is, or if the allocation is marked. -/
def Dirty (m : MappedAllocation) (offset : ℕ) : Prop :=
  m.allocation.pageRange (offset / m.allocation.pageSize) ∈ pages.entries ∨ pages.TakesFullDirty m

instance (m : MappedAllocation) (offset : ℕ) : Decidable (pages.Dirty m offset) :=
  inferInstanceAs (Decidable (_ ∨ _))

def dirtyOffsets (m : MappedAllocation) : List ℕ :=
  (List.range m.allocation.size).filter fun offset ↦ pages.Dirty m offset

def dirtyContent (memory : HostPtr → UInt8) : List (CUdeviceptr × UInt8) :=
  pages.allocations.flatMap fun m ↦ (pages.dirtyOffsets m).map fun offset ↦
    (devAdd m.allocation.serverHostPtr offset, memory (m.allocation.hostBase + offset))

/-- Where the dirty bytes are on the host. -/
def dirtyPoints : List (TrackedAllocation × ℕ) :=
  pages.allocations.flatMap fun m ↦ (pages.dirtyOffsets m).map fun offset ↦
    (m.allocation, m.allocation.hostBase + offset)

end DirtyHostPages

/-! ## Batches

A batch that goes out is one more request, unless it is empty. -/

section Batches

variable {calls : FlushCalls} {batch : List FlushedRange} {sent : List (List FlushedRange)}

theorem sendBatch_success (h : (sendBatch calls batch sent).1 = .success) :
    ∃ requests, (sendBatch calls batch sent).2 = sent ++ requests ∧ requests.flatten = batch ∧
      ∀ request ∈ requests, request = batch ∧ request ≠ [] := by
  rw [sendBatch] at h ⊢
  split_ifs at h ⊢ with hempty
  · obtain rfl := List.length_eq_zero_iff.mp hempty
    exact ⟨[], (List.append_nil _).symm, rfl, by simp⟩
  · refine ⟨[batch], rfl, List.flatten_singleton, fun request hrequest ↦ ?_⟩
    obtain rfl := List.mem_singleton.mp hrequest
    exact ⟨rfl, mt List.length_eq_zero_iff.mpr hempty⟩

/-- **No range is dropped** where one batch ends and the next begins. -/
theorem sendRanges_success {ranges : List DirtyRange} (hbatch : batch.length < flushBatchRanges)
    (h : (sendRanges calls ranges batch sent).1 = .success) :
    ∃ requests, (sendRanges calls ranges batch sent).2 = sent ++ requests ∧
      requests.flatten = batch ++ ranges.filterMap flushedRange ∧
      ∀ request ∈ requests, request ≠ [] ∧ request.length ≤ flushBatchRanges := by
  induction ranges generalizing batch sent with
  | nil =>
    rw [sendRanges] at h ⊢
    obtain ⟨requests, hsent, hflatten, hrequests⟩ := sendBatch_success h
    refine ⟨requests, hsent, hflatten.trans (List.append_nil _).symm, fun request hrequest ↦ ?_⟩
    obtain ⟨rfl, hne⟩ := hrequests request hrequest
    exact ⟨hne, hbatch.le⟩
  | cons range rest ih =>
    rw [sendRanges] at h ⊢
    cases hflushed : flushedRange range with
    | none =>
      rw [hflushed] at h
      rw [List.filterMap_cons_none hflushed]
      exact ih hbatch h
    | some flushed =>
      rw [hflushed] at h
      rw [List.filterMap_cons_some hflushed, List.append_cons]
      dsimp only at h ⊢
      have hlength : (batch ++ [flushed]).length = batch.length + 1 := List.length_append
      split_ifs at h ⊢ with hfull hfailed
      · exact absurd h hfailed
      · -- the batch is full: it goes out, and the next begins
        obtain ⟨first, hfirst, hflatten, hrequests⟩ := sendBatch_success (not_not.mp hfailed)
        obtain ⟨requests, hsent, hrest, hall⟩ := ih (by decide) h
        refine ⟨first ++ requests, ?_, ?_, fun request hrequest ↦ ?_⟩
        · rw [hsent, hfirst, List.append_assoc]
        · rw [List.flatten_append, hflatten, hrest, List.nil_append]
        · rcases List.mem_append.mp hrequest with hmem | hmem
          · obtain ⟨rfl, hne⟩ := hrequests request hmem
            exact ⟨hne, hfull.le⟩
          · exact hall request hmem
      · have hroom : (batch ++ [flushed]).length < flushBatchRanges := by omega
        exact ih hroom h

end Batches

/-! ## Clipping

The offsets of a range are an interval, of which the numbers below the size are another. -/

section Clipping

theorem filter_lt_range' (start n limit : ℕ) :
    (List.range' start n).filter (fun p ↦ decide (p < limit)) =
      List.range' start (min n (limit - start)) := by
  obtain ⟨d, hd⟩ := Nat.exists_eq_add_of_le (Nat.min_le_left n (limit - start))
  have hsplit : List.range' start n = List.range' start (min n (limit - start)) ++
      List.range' (start + min n (limit - start)) d := by
    conv_lhs => rw [hd]
    rw [← List.range'_append, one_mul]
  rw [hsplit, List.filter_append, List.filter_eq_self.mpr, List.filter_eq_nil_iff.mpr,
    List.append_nil]
  · intro p hp
    have hp := List.mem_range'_1.mp hp
    rw [decide_eq_true_eq]
    omega
  · intro p hp
    have hp := List.mem_range'_1.mp hp
    rw [decide_eq_true_eq]
    omega

/-- The byte of a point, and where it goes. -/
def pointContent (memory : HostPtr → UInt8) (x : TrackedAllocation × ℕ) : CUdeviceptr × UInt8 :=
  (devAdd x.1.serverHostPtr (x.2 - x.1.hostBase), memory x.2)

/-- The points within the size of the allocation. -/
def InSize (x : TrackedAllocation × ℕ) : Prop := x.2 < x.1.hostBase + x.1.size

instance : DecidablePred InSize := fun _ ↦ inferInstanceAs (Decidable (_ < _))

theorem devAdd_devAdd (destination : CUdeviceptr) (i j : ℕ) :
    devAdd (devAdd destination i) j = devAdd destination (i + j) := by
  rw [devAdd, devAdd, devAdd, Nat.mod_add_mod, Nat.add_assoc]

/-- **A range is clipped**: what is sent of it are its points within the size. -/
theorem content_flushedRange (memory : HostPtr → UInt8) {range : DirtyRange}
    (h : range.line.hostBase ≤ range.start) :
    ((flushedRange range).toList.flatMap fun flushed ↦ flushed.content memory) =
      (range.points.filter fun x ↦ InSize x).map (pointContent memory) := by
  obtain ⟨a, start, stop⟩ := range
  dsimp only at h
  have hfilter : (Run.points ⟨a, start, stop⟩).filter (fun x ↦ InSize x) =
      (List.range' start (min (stop - start) (a.hostBase + a.size - start))).map (a, ·) := by
    rw [Run.points, List.filter_map, ← filter_lt_range']
    rfl
  have hsub : ∀ base size : ℕ, base ≤ start → size - (start - base) = base + size - start := by
    omega
  have hadd : ∀ base i : ℕ, base ≤ start → start - base + i = start + i - base := by omega
  rw [hfilter, List.map_map, flushedRange]
  dsimp only
  split_ifs with hsize
  · rw [← hsub _ _ h, Nat.sub_eq_zero_of_le hsize, Nat.min_zero]
    rfl
  · rw [Option.toList_some, List.flatMap_singleton, FlushedRange.content, List.range'_eq_map_range,
      List.map_map, hsub _ _ h]
    refine List.map_congr_left fun i _ ↦ ?_
    rw [Function.comp_apply, Function.comp_apply, pointContent, devAdd_devAdd, hadd _ _ h]

end Clipping

/-! ## The ranges of a flush

Allocations are told apart by where they begin, as no two are at one place in the map; the
comparison of the sort then is a total order on ranges. A range begins in its storage and is not
empty. -/

section Ranges

variable {pages : DirtyHostPages} {r s : DirtyRange}

/-- The order of the sort where allocations are told apart by where they begin. -/
def rangeLe (r s : DirtyRange) : Bool :=
  decide (r.line.hostBase < s.line.hostBase ∨ (r.line.hostBase = s.line.hostBase ∧
    (r.start < s.start ∨ (r.start = s.start ∧ r.stop ≤ s.stop))))

theorem not_rangeLess (h : r.line.hostBase = s.line.hostBase → r.line = s.line) :
    (!rangeLess s r) = rangeLe r s := by
  have hline : s.line ≠ r.line ↔ r.line.hostBase ≠ s.line.hostBase :=
    not_congr ⟨fun heq ↦ heq ▸ rfl, fun heq ↦ (h heq).symm⟩
  rw [Bool.eq_iff_iff, rangeLess, rangeLe, decide_eq_true_eq]
  split_ifs with hne hstart <;> rw [hline] at hne <;>
    simp only [Bool.not_eq_true', decide_eq_false_iff_not, Nat.not_lt] <;> omega

theorem eq_of_hostBase_eq {m n : MappedAllocation} (hm : m ∈ pages.allocations)
    (hn : n ∈ pages.allocations) (h : m.allocation.hostBase = n.allocation.hostBase) : m = n := by
  have hnodup : (pages.allocations.map fun m ↦ m.allocation.hostBase).Nodup :=
    List.pairwise_map.mpr (pages.sorted.imp Nat.ne_of_lt)
  exact List.inj_on_of_nodup_map hnodup hm hn h

/-- A range is a page whose entry is ready, or the storage of an allocation that is marked. -/
theorem mem_ranges : r ∈ pages.ranges ↔
    r ∈ pages.entries ∨ ∃ m ∈ pages.allocations, pages.TakesFullDirty m ∧
      r = m.allocation.storageRange := by
  rw [DirtyHostPages.ranges, List.mem_append, List.mem_map]
  refine or_congr_right ?_
  constructor
  · rintro ⟨m, hm, rfl⟩
    obtain ⟨hmem, htakes⟩ := List.mem_filter.mp hm
    exact ⟨m, hmem, of_decide_eq_true htakes, rfl⟩
  · rintro ⟨m, hmem, htakes, rfl⟩
    exact ⟨m, List.mem_filter.mpr ⟨hmem, decide_eq_true htakes⟩, rfl⟩

theorem exists_allocation_of_mem_ranges (h : r ∈ pages.ranges) :
    ∃ m ∈ pages.allocations, m.allocation = r.line := by
  rcases mem_ranges.mp h with hentry | ⟨m, hm, -, rfl⟩
  · exact pages.mapped r hentry
  · exact ⟨m, hm, rfl⟩

theorem bounds_of_mem_ranges (h : r ∈ pages.ranges) :
    r.line.hostBase ≤ r.start ∧ r.start < r.stop := by
  rcases mem_ranges.mp h with hentry | ⟨m, hm, -, rfl⟩
  · obtain ⟨page, -, hpage⟩ := pages.page r hentry
    rw [hpage]
    exact ⟨Nat.le_add_right _ _, Nat.lt_add_of_pos_right r.line.pageSize_pos⟩
  · exact ⟨le_rfl, Nat.lt_add_of_pos_right
      (Nat.mul_pos m.allocation.pageCount_pos m.allocation.pageSize_pos)⟩

theorem line_eq_of_hostBase_eq (hr : r ∈ pages.ranges) (hs : s ∈ pages.ranges)
    (h : r.line.hostBase = s.line.hostBase) : r.line = s.line := by
  obtain ⟨m, hm, hmr⟩ := exists_allocation_of_mem_ranges hr
  obtain ⟨n, hn, hns⟩ := exists_allocation_of_mem_ranges hs
  rw [← hmr, ← hns] at h ⊢
  rw [eq_of_hostBase_eq hm hn h]

theorem pairwise_sortedRanges (pages : DirtyHostPages) :
    (pages.ranges.mergeSort fun r s ↦ !rangeLess s r).Pairwise
      (BeginsBefore TrackedAllocation.hostBase) := by
  have hsort : (pages.ranges.mergeSort fun r s ↦ !rangeLess s r) =
      pages.ranges.mergeSort rangeLe := by
    have hmap := List.map_mergeSort (f := id) (r := fun r s ↦ !rangeLess s r) (s := rangeLe)
      (l := pages.ranges) fun r hr s hs ↦ not_rangeLess (line_eq_of_hostBase_eq hr hs)
    rwa [List.map_id, List.map_id] at hmap
  have htrans : ∀ r s t : DirtyRange, rangeLe r s → rangeLe s t → rangeLe r t := by
    intro r s t
    simp only [rangeLe, decide_eq_true_eq]
    omega
  have htotal : ∀ r s : DirtyRange, (rangeLe r s || rangeLe s r) = true := by
    intro r s
    simp only [rangeLe, Bool.or_eq_true, decide_eq_true_eq]
    omega
  rw [hsort]
  refine (List.pairwise_mergeSort htrans htotal pages.ranges).imp_of_mem fun {r s} hr hs hle ↦ ?_
  rw [rangeLe, decide_eq_true_eq] at hle
  rcases hle with hlt | ⟨heq, hle⟩
  · exact Or.inl hlt
  · refine Or.inr ⟨line_eq_of_hostBase_eq (List.mem_mergeSort.mp hr) (List.mem_mergeSort.mp hs) heq,
      ?_⟩
    omega

/-- The merged ranges have gaps, begin in their storage, and have the points of the ranges. -/
theorem mergedRanges_spec (pages : DirtyHostPages) :
    (mergedRanges pages.ranges).Pairwise (EndsBefore TrackedAllocation.hostBase) ∧
      (∀ r ∈ mergedRanges pages.ranges, r.line.hostBase ≤ r.start) ∧
      ∀ x, x ∈ (mergedRanges pages.ranges).flatMap Run.points ↔
        x ∈ pages.ranges.flatMap Run.points := by
  obtain ⟨hgaps, hne, hpoints⟩ := mergeRuns_spec (pairwise_sortedRanges pages)
    fun r hr ↦ (bounds_of_mem_ranges (List.mem_mergeSort.mp hr)).2
  have hmem : ∀ x, x ∈ (mergedRanges pages.ranges).flatMap Run.points ↔
      x ∈ pages.ranges.flatMap Run.points := by
    intro x
    rw [mergedRanges, hpoints]
    simp only [List.mem_flatMap, List.mem_mergeSort]
  refine ⟨hgaps, fun r hr ↦ ?_, hmem⟩
  -- its first point is in one of the ranges
  have hfirst : (r.line, r.start) ∈ (mergedRanges pages.ranges).flatMap Run.points :=
    List.mem_flatMap.mpr ⟨r, hr, Run.mem_points.mpr ⟨rfl, le_rfl, hne r hr⟩⟩
  obtain ⟨s, hs, hfirst⟩ := List.mem_flatMap.mp ((hmem _).mp hfirst)
  obtain ⟨hline, hstart, -⟩ := Run.mem_points.mp hfirst
  dsimp only at hline hstart
  rw [hline]
  exact (bounds_of_mem_ranges hs).1.trans hstart

theorem mem_pageRange_iff {a : TrackedAllocation} {page offset : ℕ} :
    (a, a.hostBase + offset) ∈ (a.pageRange page).points ↔ offset / a.pageSize = page := by
  rw [Run.mem_points, TrackedAllocation.pageRange, and_iff_right rfl,
    Nat.div_eq_iff a.pageSize_pos]
  dsimp only
  have hpos := a.pageSize_pos
  omega

/-- **The dirty bytes** are the points of the ranges within the size. -/
theorem mem_dirtyPoints {x : TrackedAllocation × ℕ} :
    x ∈ pages.dirtyPoints ↔ x ∈ pages.ranges.flatMap Run.points ∧ InSize x := by
  constructor
  · intro hx
    obtain ⟨m, hm, hx⟩ := List.mem_flatMap.mp hx
    obtain ⟨offset, hoffset, rfl⟩ := List.mem_map.mp hx
    obtain ⟨hsize, hdirty⟩ := List.mem_filter.mp hoffset
    rw [List.mem_range] at hsize
    refine ⟨List.mem_flatMap.mpr ?_, Nat.add_lt_add_left hsize _⟩
    rcases of_decide_eq_true hdirty with hentry | htakes
    · exact ⟨_, mem_ranges.mpr (Or.inl hentry), mem_pageRange_iff.mpr rfl⟩
    · refine ⟨_, mem_ranges.mpr (Or.inr ⟨m, hm, htakes, rfl⟩), Run.mem_points.mpr
        ⟨rfl, Nat.le_add_right _ _, ?_⟩⟩
      exact Nat.add_lt_add_left (lt_of_lt_of_le hsize m.allocation.size_le) _
  · rintro ⟨hx, hsize⟩
    obtain ⟨r, hr, hx⟩ := List.mem_flatMap.mp hx
    obtain ⟨a, p⟩ := x
    obtain ⟨hline, hstart, -⟩ := Run.mem_points.mp hx
    dsimp only at hline hstart
    subst hline
    obtain ⟨offset, rfl⟩ := Nat.exists_eq_add_of_le ((bounds_of_mem_ranges hr).1.trans hstart)
    have hoffset : offset < r.line.size := Nat.lt_of_add_lt_add_left hsize
    have hdirty : ∃ m ∈ pages.allocations, m.allocation = r.line ∧ pages.Dirty m offset := by
      rcases mem_ranges.mp hr with hentry | ⟨m, hm, htakes, rfl⟩
      · obtain ⟨m, hm, hmr⟩ := pages.mapped r hentry
        obtain ⟨page, -, hpage⟩ := pages.page r hentry
        rw [hpage] at hx
        refine ⟨m, hm, hmr, Or.inl ?_⟩
        rw [hmr, mem_pageRange_iff.mp hx, ← hpage]
        exact hentry
      · exact ⟨m, hm, rfl, Or.inr htakes⟩
    obtain ⟨m, hm, hmr, hdirty⟩ := hdirty
    rw [← hmr] at hoffset ⊢
    exact List.mem_flatMap.mpr ⟨m, hm, List.mem_map.mpr ⟨offset, List.mem_filter.mpr
      ⟨List.mem_range.mpr hoffset, decide_eq_true hdirty⟩, rfl⟩⟩

theorem pairwise_dirtyPoints (pages : DirtyHostPages) :
    pages.dirtyPoints.Pairwise (PointBefore TrackedAllocation.hostBase) := by
  refine List.pairwise_flatMap.mpr ⟨fun m _ ↦ ?_, pages.sorted.imp fun {m n} hlt x hx y hy ↦ ?_⟩
  · refine List.pairwise_map.mpr ((List.pairwise_lt_range.filter _).imp fun hlt ↦ ?_)
    exact Or.inr ⟨rfl, Nat.add_lt_add_left hlt _⟩
  · obtain ⟨_, -, rfl⟩ := List.mem_map.mp hx
    obtain ⟨_, -, rfl⟩ := List.mem_map.mp hy
    exact Or.inl hlt

/-- The points of the merged ranges within the size are the dirty bytes, in their order. -/
theorem filter_points_mergedRanges (pages : DirtyHostPages) :
    (((mergedRanges pages.ranges).flatMap Run.points).filter fun x ↦ InSize x) =
      pages.dirtyPoints := by
  obtain ⟨hgaps, -, hpoints⟩ := mergedRanges_spec pages
  refine eq_of_pairwise_pointBefore ((pairwise_points hgaps).filter _) (pairwise_dirtyPoints pages)
    fun x ↦ ?_
  rw [List.mem_filter, decide_eq_true_eq, hpoints, mem_dirtyPoints]

theorem dirtyContent_eq (pages : DirtyHostPages) (memory : HostPtr → UInt8) :
    pages.dirtyContent memory = pages.dirtyPoints.map (pointContent memory) := by
  rw [DirtyHostPages.dirtyContent, DirtyHostPages.dirtyPoints, List.map_flatMap]
  refine congrArg (List.flatMap · _) (funext fun m ↦ ?_)
  rw [List.map_map]
  refine List.map_congr_left fun offset _ ↦ ?_
  rw [Function.comp_apply, pointContent, Nat.add_sub_cancel_left]

end Ranges

/-! ## The whole of it -/

section Flush

variable {calls : FlushCalls} {pages : DirtyHostPages}

theorem content_mergedRanges (pages : DirtyHostPages) (memory : HostPtr → UInt8) :
    (((mergedRanges pages.ranges).filterMap flushedRange).flatMap fun flushed ↦
      flushed.content memory) = pages.dirtyContent memory := by
  obtain ⟨-, hbase, -⟩ := mergedRanges_spec pages
  have hranges : ∀ ranges : List DirtyRange, (∀ r ∈ ranges, r.line.hostBase ≤ r.start) →
      ((ranges.filterMap flushedRange).flatMap fun flushed ↦ flushed.content memory) =
        ((ranges.flatMap Run.points).filter fun x ↦ InSize x).map (pointContent memory) := by
    intro ranges
    induction ranges with
    | nil => exact fun _ ↦ rfl
    | cons range ranges ih =>
      intro hbase
      obtain ⟨hrange, hbase⟩ := List.forall_mem_cons.mp hbase
      rw [List.flatMap_cons, List.filter_append, List.map_append,
        ← content_flushedRange memory hrange, ← ih hbase]
      cases hflushed : flushedRange range with
      | none =>
        rw [List.filterMap_cons_none hflushed]
        rfl
      | some flushed =>
        rw [List.filterMap_cons_some hflushed, List.flatMap_cons, Option.toList_some,
          List.flatMap_singleton]
  rw [hranges _ hbase, filter_points_mergedRanges, dirtyContent_eq]

/-- **A flush** that succeeds has sent the dirty bytes, each once, in requests of up to 1024
ranges. -/
theorem flush_sends_dirtyContent (calls : FlushCalls) (pages : DirtyHostPages)
    (memory : HostPtr → UInt8) (h : (flushDirtyHostPagesToRoute calls pages).1 = .success) :
    ((flushDirtyHostPagesToRoute calls pages).2.flatMap fun request ↦
        request.flatMap (FlushedRange.content memory)) = pages.dirtyContent memory ∧
      ∀ request ∈ (flushDirtyHostPagesToRoute calls pages).2,
        request ≠ [] ∧ request.length ≤ flushBatchRanges := by
  rw [flushDirtyHostPagesToRoute] at h ⊢
  split_ifs at h ⊢ with hempty hprotect hconnected
  · refine ⟨?_, by simp⟩
    rw [← content_mergedRanges, hempty, mergedRanges, List.mergeSort_nil]
    rfl
  · obtain ⟨requests, hsent, hflatten, hrequests⟩ := sendRanges_success (by decide) h
    rw [List.nil_append] at hsent hflatten
    rw [hsent]
    refine ⟨?_, hrequests⟩
    rw [← content_mergedRanges, ← hflatten, ← List.flatMap_id, List.flatMap_assoc]
    rfl

theorem flush_success (pages : DirtyHostPages) :
    (flushDirtyHostPagesToRoute ⟨fun _ ↦ true, true, fun _ _ ↦ true⟩ pages).1 = .success := by
  have hsend : ∀ batch sent,
      (sendBatch ⟨fun _ ↦ true, true, fun _ _ ↦ true⟩ batch sent).1 = .success := by
    intro batch sent
    rw [sendBatch]
    split_ifs <;> first | rfl | contradiction
  have hranges : ∀ (ranges : List DirtyRange) batch sent,
      (sendRanges ⟨fun _ ↦ true, true, fun _ _ ↦ true⟩ ranges batch sent).1 = .success := by
    intro ranges
    induction ranges with
    | nil => exact hsend
    | cons range rest ih =>
      intro batch sent
      rw [sendRanges]
      cases flushedRange range with
      | none => exact ih batch sent
      | some flushed =>
        dsimp only
        rw [if_neg (not_not.mpr (hsend _ _))]
        split_ifs
        · exact ih _ _
        · exact ih _ _
  rw [flushDirtyHostPagesToRoute]
  split_ifs with hempty hprotect hconnected
  · rfl
  · simp at hprotect
  · exact hconnected.elim
  · exact hranges _ _ _

/-- Two pages of four bytes for six bytes. -/
def sixBytes : TrackedAllocation := ⟨8, 6, 4, 2, 100, by decide, by decide, by decide⟩

/-- The last page is dirty twice over, and the first as well. -/
def sixBytesDirty : DirtyHostPages where
  routeId := 0
  allocations := [⟨sixBytes, true, 0, false, false⟩]
  entries := [sixBytes.pageRange 1, sixBytes.pageRange 1, sixBytes.pageRange 0]
  fullDirtyPending := false
  sorted := List.pairwise_singleton _ _
  mapped := by decide
  page := by
    simp only [List.forall_mem_cons]
    exact ⟨⟨1, by decide, rfl⟩, ⟨1, by decide, rfl⟩, ⟨0, by decide, rfl⟩, by simp⟩

theorem flush_sends_sixBytes :
    ((flushDirtyHostPagesToRoute ⟨fun _ ↦ true, true, fun _ _ ↦ true⟩ sixBytesDirty).2.flatMap
        fun request ↦ request.flatMap (FlushedRange.content fun p ↦ p.toUInt8)) =
      [(100, 8), (101, 9), (102, 10), (103, 11), (104, 12), (105, 13)] := by
  have hcontent : sixBytesDirty.dirtyContent (fun p ↦ p.toUInt8) =
      [(100, 8), (101, 9), (102, 10), (103, 11), (104, 12), (105, 13)] := by decide
  rw [← hcontent]
  exact (flush_sends_dirtyContent _ sixBytesDirty _ (flush_success sixBytesDirty)).1

end Flush

end Lupine
