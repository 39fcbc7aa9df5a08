import Lupine.Foundation.Machine
import Lupine.Foundation.PointerTable
import Mathlib.Data.List.Dedup

/-!
# The queue of dirty host pages

A write to a tracked page faults. The handler puts the page into the dirty queue of its route, or,
when the queue is full, marks the whole allocation, and enables writes. A flush takes what the queue
and the marks say, protects the pages again and sends them; when it fails it marks the allocations
of all it had taken.

## Publication and protection

Handlers run on any number of threads and share the queue with the flush through atomics; flushes of
a route exclude each other. A handler publishes its entry, or its mark, before it enables writes. A
flush that takes it in between protects the page first and is overtaken by the handler: the page is
then open to writes that no entry accounts for.

Here every access to shared memory is a step of its own, except that a flush takes its entries and
moves the ends of the queue in one step: nobody else looks at entries that are ready, or at `start`.
Pages have versions, which count the writes to them, and a page is sent in the version it had when
its bytes were read. The counts of pending ranges, for which only retirement waits, are left out, as
are retiring and invalidated allocations. A flush sorts what it has taken by address and merges it.
The model has no addresses, so the sorted list may be in any order; it is the same one in which the
pages are protected, sent, and marked again after a failure. Where batches end is left open as well.

## What accounts for a page

A page needs to be sent when it may be written without a fault, or was written since its bytes
went out. The invariant names the places that account for such a page: an entry of the queue, the
mark of its allocation, and the flush that has taken it. Handlers only add entries and marks. A
flush takes them away, and it then accounts for the page itself until its batch is sent or the
allocation is marked again.
-/

namespace Lupine

open Foundation

/-! ## State

Of the handlers and the flush the state has the point they have come to, with the local variables
that they still use. A page has a version that counts its writes, and the server has a version of
it; the page is up to date when the two agree. -/

/-- A page, by its allocation and its number there. -/
structure HostPage where
  allocation : ℕ
  index : ℕ
  deriving DecidableEq, Repr

/-- The tracked allocations of a route, and `LUPINE_MAX_MANAGED_HOST_DIRTY_RANGES`. -/
structure DirtyConfig where
  allocations : List ℕ
  pageCount : ℕ → ℕ
  capacity : ℕ := 64 * 1024

/-- A page of a tracked allocation. -/
def DirtyConfig.Valid (config : DirtyConfig) (page : HostPage) : Prop :=
  page.allocation ∈ config.allocations ∧ page.index < config.pageCount page.allocation

instance (config : DirtyConfig) (page : HostPage) : Decidable (config.Valid page) :=
  inferInstanceAs (Decidable (_ ∧ _))

def DirtyConfig.pagesOf (config : DirtyConfig) (allocation : ℕ) : List HostPage :=
  (List.range (config.pageCount allocation)).map fun index ↦ ⟨allocation, index⟩

/-- How far the write path of `lupine_sigsegv_handler` has come: it has a slot, its entry is ready;
or it was refused a slot, has set `full_dirty`, has set `full_dirty_pending`. -/
inductive FaultHandler where
  | faulted (page : HostPage)
  | reserved (page : HostPage) (slot : ℕ)
  | queued (page : HostPage) (slot : ℕ)
  | refused (page : HostPage)
  | marked (page : HostPage)
  | raised (page : HostPage)
  deriving DecidableEq, Repr

def FaultHandler.page : FaultHandler → HostPage
  | faulted page | reserved page _ | queued page _ => page
  | refused page | marked page | raised page => page

/-- How far `lupine_flush_dirty_host_pages_to_route` has come, with the variables it still uses:
`end` is `stop`, `held` are the pages of `ranges`, and a batch has the versions that were read. -/
inductive DirtyFlush where
  | idle
  | scanning (reserved stop : ℕ)
  | scanned (stop : ℕ)
  | checked (stop : ℕ) (hasFullDirty : Bool)
  | taken (held : List HostPage) (hasFullDirty : Bool)
  | sweeping (held : List HostPage) (rest : List ℕ)
  | protecting (held rest : List HostPage)
  | sending (held rest : List HostPage) (batch : List (HostPage × ℕ))
  | restoring (rest : List HostPage)
  deriving DecidableEq, Repr

/-- The queue of a route with the marks, the protection and the versions of the pages, the version
the server has, the handlers by thread, and the flush. -/
structure DirtyState where
  ranges : ℕ → HostPage := fun _ ↦ ⟨0, 0⟩
  ready : ℕ → Bool := fun _ ↦ false
  next : ℕ := 0
  start : ℕ := 0
  fullDirtyPending : Bool := false
  fullDirty : ℕ → Bool := fun _ ↦ false
  writable : HostPage → Bool := fun _ ↦ false
  version : HostPage → ℕ := fun _ ↦ 0
  sent : HostPage → ℕ := fun _ ↦ 0
  handlers : AList (fun _ : ℕ ↦ FaultHandler) := ∅
  flush : DirtyFlush := .idle

/-! ## Steps

A handler takes one step for each access to shared memory: reserve a slot, write the entry, make it
ready, enable writes; or, when the queue is full, set the two flags. The condition of a run is that
a flush takes only what handlers are done with. -/

/-- The steps of the handlers, each on a thread, of the host, and of the flush. -/
inductive DirtyStep where
  /-- A write to a protected page. -/
  | fault (thread : ℕ) (page : HostPage)
  /-- `lupine_reserve_dirty_host_range`. -/
  | reserve (thread : ℕ)
  /-- The entry is written and made ready. -/
  | publish (thread : ℕ)
  /-- `full_dirty` is set. -/
  | mark (thread : ℕ)
  /-- `full_dirty_pending` is set. -/
  | raise (thread : ℕ)
  /-- Writes are enabled and the handler returns. -/
  | unprotect (thread : ℕ)
  | hostWrite (page : HostPage)
  | flushStart
  /-- One round of the loop that looks for entries that are ready. -/
  | scan
  | scanStop
  /-- `full_dirty_pending` is read. -/
  | readFullDirty
  | take
  /-- `full_dirty_pending` is exchanged. -/
  | exchangeFullDirty
  /-- `full_dirty` of the next allocation is exchanged. -/
  | sweep
  /-- The ranges are sorted and merged. -/
  | sweepDone (sorted : List HostPage)
  | protect
  | protectDone
  | readPage
  /-- A batch went out. -/
  | sendBatch
  | flushDone
  /-- A range could not be protected, there is no connection, or a batch could not be sent. -/
  | flushFail
  /-- `full_dirty` and `full_dirty_pending` are set for one range. -/
  | restore
  | restoreDone
  deriving DecidableEq, Repr

namespace DirtyState

variable (st : DirtyState)

/-- The pages of the entries of the queue up to `stop`. -/
def entriesTo (stop : ℕ) : List HostPage :=
  (List.range' st.start (stop - st.start)).map st.ranges

def deliver (sent : HostPage → ℕ) (batch : List (HostPage × ℕ)) : HostPage → ℕ :=
  batch.foldl (fun sent entry ↦ Function.update sent entry.1 entry.2) sent

def setHandler (thread : ℕ) (handler : FaultHandler) : DirtyState :=
  { st with handlers := st.handlers.insert thread handler }

def handlerStep (config : DirtyConfig) (thread : ℕ) : FaultHandler → DirtyStep → Option DirtyState
  | .faulted page, .reserve _ =>
    if st.next < config.capacity then
      some ({ st with next := st.next + 1 }.setHandler thread (.reserved page st.next))
    else some (st.setHandler thread (.refused page))
  | .reserved page slot, .publish _ =>
    some ({ st with
      ranges := Function.update st.ranges slot page
      ready := Function.update st.ready slot true }.setHandler thread (.queued page slot))
  | .refused page, .mark _ =>
    let fullDirty := Function.update st.fullDirty page.allocation true
    some ({ st with fullDirty }.setHandler thread (.marked page))
  | .marked page, .raise _ =>
    some ({ st with fullDirtyPending := true }.setHandler thread (.raised page))
  | .queued page _, .unprotect _ | .raised page, .unprotect _ =>
    some { st with
      writable := Function.update st.writable page true
      handlers := st.handlers.erase thread }
  | _, _ => none

def flushStep (config : DirtyConfig) : DirtyFlush → DirtyStep → Option DirtyState
  | .idle, .flushStart => some { st with flush := .scanning st.next st.start }
  | .scanning reserved stop, .scan =>
    if stop < reserved ∧ st.ready stop then some { st with flush := .scanning reserved (stop + 1) }
    else none
  | .scanning reserved stop, .scanStop =>
    if stop < reserved ∧ st.ready stop then none else some { st with flush := .scanned stop }
  | .scanned stop, .readFullDirty =>
    if stop = st.start ∧ st.fullDirtyPending = false then some { st with flush := .idle }
    else some { st with flush := .checked stop st.fullDirtyPending }
  | .checked stop hasFullDirty, .take =>
    let held := st.entriesTo stop
    let ready := fun slot ↦ if st.start ≤ slot ∧ slot < stop then false else st.ready slot
    if st.next = stop then
      some { st with ready, next := 0, start := 0, flush := .taken held hasFullDirty }
    else some { st with ready, start := stop, flush := .taken held hasFullDirty }
  | .taken held hasFullDirty, .exchangeFullDirty =>
    if hasFullDirty ∧ st.fullDirtyPending then
      some { st with fullDirtyPending := false, flush := .sweeping held config.allocations }
    else some { st with flush := .sweeping held [] }
  | .sweeping held (allocation :: rest), .sweep =>
    if st.fullDirty allocation then
      some { st with
        fullDirty := Function.update st.fullDirty allocation false
        flush := .sweeping (held ++ config.pagesOf allocation) rest }
    else some { st with flush := .sweeping held rest }
  | .sweeping held [], .sweepDone sorted =>
    if held = [] then some { st with flush := .idle }
    else if sorted.Perm held then some { st with flush := .protecting sorted sorted.dedup }
    else none
  | .protecting held (page :: rest), .protect =>
    some { st with
      writable := Function.update st.writable page false
      flush := .protecting held rest }
  | .protecting held [], .protectDone => some { st with flush := .sending held held.dedup [] }
  | .sending held (page :: rest) batch, .readPage =>
    some { st with flush := .sending held rest (batch ++ [(page, st.version page)]) }
  | .sending held rest batch, .sendBatch =>
    some { st with sent := deliver st.sent batch, flush := .sending held rest [] }
  | .sending _ [] [], .flushDone => some { st with flush := .idle }
  | .protecting held _, .flushFail | .sending held _ _, .flushFail =>
    some { st with flush := .restoring held }
  | .restoring (page :: rest), .restore =>
    some { st with
      fullDirty := Function.update st.fullDirty page.allocation true
      fullDirtyPending := true
      flush := .restoring rest }
  | .restoring [], .restoreDone => some { st with flush := .idle }
  | _, _ => none

def step (config : DirtyConfig) (st : DirtyState) (step : DirtyStep) : Option DirtyState :=
  match step with
  | .fault thread page =>
    if config.Valid page ∧ st.writable page = false ∧ st.handlers.lookup thread = none then
      some (st.setHandler thread (.faulted page))
    else none
  | .hostWrite page =>
    if st.writable page then
      some { st with version := Function.update st.version page (st.version page + 1) }
    else none
  | .reserve thread | .publish thread | .mark thread | .raise thread | .unprotect thread =>
    (st.handlers.lookup thread).bind fun handler ↦ st.handlerStep config thread handler step
  | step => st.flushStep config st.flush step

end DirtyState

def dirtyMachine (config : DirtyConfig) : Machine DirtyState DirtyStep := ⟨DirtyState.step config⟩

/-- A handler that has published this entry has yet to enable writes. -/
def FaultHandler.HoldsSlot (slot : ℕ) : FaultHandler → Prop
  | queued _ s => s = slot
  | _ => False

/-- A handler that has marked this allocation has yet to enable writes. -/
def FaultHandler.HoldsMark (allocation : ℕ) : FaultHandler → Prop
  | marked page | raised page => page.allocation = allocation
  | _ => False

instance (slot : ℕ) (handler : FaultHandler) : Decidable (handler.HoldsSlot slot) := by
  cases handler <;> unfold FaultHandler.HoldsSlot <;> infer_instance

instance (allocation : ℕ) (handler : FaultHandler) : Decidable (handler.HoldsMark allocation) := by
  cases handler <;> unfold FaultHandler.HoldsMark <;> infer_instance

/-- No handler is between its publication and its protection. -/
def DirtyState.NoHandler (st : DirtyState) (p : FaultHandler → Prop) : Prop :=
  ∀ thread ∈ st.handlers.keys, ∀ handler ∈ st.handlers.lookup thread, ¬p handler

instance (st : DirtyState) (p : FaultHandler → Prop) [DecidablePred p] :
    Decidable (st.NoHandler p) :=
  inferInstanceAs (Decidable (∀ _ ∈ _, ∀ _ ∈ _, _))

/-- A flush takes an entry or a mark only when the handler that made it has enabled writes. -/
def DirtyCond (st : DirtyState) (step : DirtyStep) : Prop :=
  match step, st.flush with
  | .take, .checked stop _ => ∀ slot < stop, st.start ≤ slot → st.NoHandler (·.HoldsSlot slot)
  | .sweep, .sweeping _ (allocation :: _) => st.NoHandler (·.HoldsMark allocation)
  | _, _ => True

instance (st : DirtyState) (step : DirtyStep) : Decidable (DirtyCond st step) := by
  unfold DirtyCond
  split <;> infer_instance

/-! ## The invariant

Beside the places that account for a page it says that entries which are ready are in the queue,
that two handlers never share a slot, and that a mark is seen: the flag for pending marks is set,
or its handler will set it, or a flush looks for marks. Most of these facts only grow, and the
lemmas here carry them over a change that adds entries or sets marks. -/

/-- The page is in the queue. -/
def DirtyState.Queued (st : DirtyState) (page : HostPage) : Prop :=
  ∃ slot, st.ready slot = true ∧ st.ranges slot = page

/-- The page may be written without a fault, or was written since it was sent. -/
def DirtyState.Needs (st : DirtyState) (page : HostPage) : Prop :=
  st.writable page = true ∨ st.sent page ≠ st.version page

/-- What a handler relies on. -/
def FaultHandler.Ok (st : DirtyState) : FaultHandler → Prop
  | faulted _ | refused _ => True
  | reserved _ slot => st.start ≤ slot ∧ slot < st.next ∧ st.ready slot = false
  | queued page slot => st.ready slot = true ∧ st.ranges slot = page
  | marked page | raised page => st.fullDirty page.allocation = true

/-- What a flush relies on. -/
def DirtyFlush.Ok (config : DirtyConfig) (st : DirtyState) : DirtyFlush → Prop
  | idle => True
  | scanning reserved stop => stop ≤ reserved ∧ reserved ≤ st.next ∧ st.start ≤ stop ∧
      ∀ slot, st.start ≤ slot → slot < stop → st.ready slot = true
  | scanned stop | checked stop _ => stop ≤ st.next ∧ st.start ≤ stop ∧
      ∀ slot, st.start ≤ slot → slot < stop → st.ready slot = true
  | taken held _ | sweeping held _ | protecting held _ | restoring held =>
    ∀ page ∈ held, config.Valid page
  | sending held rest batch =>
    (∀ page ∈ held, config.Valid page) ∧ (batch.map Prod.fst ++ rest).Nodup ∧
      ∀ entry ∈ batch, st.sent entry.1 ≤ entry.2 ∧ entry.2 ≤ st.version entry.1

/-- A flush is about to send what the page holds, or to mark its allocation. -/
def DirtyFlush.Holds (st : DirtyState) (page : HostPage) : DirtyFlush → Prop
  | taken held _ | sweeping held _ | restoring held => page ∈ held
  | protecting held rest => page ∈ held ∧ (st.writable page = true → page ∈ rest)
  | sending held rest batch => page ∈ held ∧ st.writable page = false ∧
      (page ∈ rest ∨ (page, st.version page) ∈ batch)
  | idle | scanning _ _ | scanned _ | checked _ _ => False

/-- Some place accounts for the page. -/
def DirtyState.Covered (st : DirtyState) (page : HostPage) : Prop :=
  st.Queued page ∨ st.fullDirty page.allocation = true ∨ st.flush.Holds st page

/-- Somebody will see the mark of the allocation. -/
def DirtyState.MarkSeen (st : DirtyState) (allocation : ℕ) : Prop :=
  st.fullDirtyPending = true ∨
    (∃ thread page, st.handlers.lookup thread = some (.marked page) ∧
      page.allocation = allocation) ∨
    ∃ held rest, st.flush = .sweeping held rest ∧ allocation ∈ rest

/-- Ready entries are in the queue, handlers have slots and marks of their own, marks are seen, and
what needs to be sent is accounted for. -/
structure DirtyInv (config : DirtyConfig) (st : DirtyState) : Prop where
  bounds : st.start ≤ st.next
  sent : ∀ page, st.sent page ≤ st.version page
  ready : ∀ slot, st.ready slot = true →
    st.start ≤ slot ∧ slot < st.next ∧ config.Valid (st.ranges slot)
  handlers : ∀ thread handler, st.handlers.lookup thread = some handler →
    config.Valid handler.page ∧ handler.Ok st
  distinct : ∀ thread thread' page page' slot,
    st.handlers.lookup thread = some (.reserved page slot) →
      st.handlers.lookup thread' = some (.reserved page' slot) → thread = thread'
  marks : ∀ allocation, st.fullDirty allocation = true →
    allocation ∈ config.allocations ∧ st.MarkSeen allocation
  flush : st.flush.Ok config st
  covered : ∀ page, st.Needs page → config.Valid page ∧ st.Covered page

variable {config : DirtyConfig} {st st' : DirtyState} {thread slot : ℕ} {page : HostPage}
  {handler : FaultHandler}

theorem mem_pagesOf {allocation : ℕ} :
    page ∈ config.pagesOf allocation ↔
      page.allocation = allocation ∧ page.index < config.pageCount allocation := by
  rw [DirtyConfig.pagesOf, List.mem_map]
  constructor
  · rintro ⟨index, hindex, rfl⟩
    exact ⟨rfl, List.mem_range.mp hindex⟩
  · rintro ⟨rfl, hindex⟩
    exact ⟨page.index, List.mem_range.mpr hindex, rfl⟩

theorem DirtyState.mem_entriesTo {stop : ℕ} :
    page ∈ st.entriesTo stop ↔ ∃ slot, st.start ≤ slot ∧ slot < stop ∧ st.ranges slot = page := by
  rw [DirtyState.entriesTo, List.mem_map]
  constructor
  · rintro ⟨slot, hslot, rfl⟩
    have := List.mem_range'_1.mp hslot
    exact ⟨slot, this.1, by omega, rfl⟩
  · rintro ⟨slot, hlow, hhigh, rfl⟩
    exact ⟨slot, List.mem_range'_1.mpr (by omega), rfl⟩

namespace DirtyState

variable {sent : HostPage → ℕ} {batch : List (HostPage × ℕ)}

theorem deliver_of_notMem (h : page ∉ batch.map Prod.fst) :
    deliver sent batch page = sent page := by
  induction batch generalizing sent with
  | nil => rfl
  | cons entry batch ih =>
    obtain ⟨hne, hrest⟩ := not_or.mp (List.mem_cons.not.mp h)
    exact (ih hrest).trans (Function.update_of_ne hne _ _)

theorem deliver_of_mem {version : ℕ} (hnodup : (batch.map Prod.fst).Nodup)
    (h : (page, version) ∈ batch) : deliver sent batch page = version := by
  induction batch generalizing sent with
  | nil => exact nomatch h
  | cons entry batch ih =>
    obtain ⟨hnotMem, hnodup⟩ := List.nodup_cons.mp hnodup
    rcases List.mem_cons.mp h with rfl | h
    · exact (deliver_of_notMem hnotMem).trans (Function.update_self _ _ _)
    · exact ih hnodup h

end DirtyState

theorem update_true_of_eq_true {marks : ℕ → Bool} (k : ℕ) {j : ℕ} (h : marks j = true) :
    Function.update marks k true j = true := by
  rcases eq_or_ne j k with rfl | hne
  · exact Function.update_self _ _ _
  · exact (Function.update_of_ne hne _ _).trans h

theorem FaultHandler.Ok.mono (h : handler.Ok st) (hstart : st'.start = st.start)
    (hnext : st.next ≤ st'.next) (hready : st'.ready = st.ready) (hranges : st'.ranges = st.ranges)
    (hfull : ∀ allocation, st.fullDirty allocation = true → st'.fullDirty allocation = true) :
    handler.Ok st' := by
  cases handler with
  | faulted | refused => trivial
  | reserved page slot =>
    obtain ⟨hlow, hhigh, hfree⟩ := h
    exact ⟨hstart ▸ hlow, Nat.lt_of_lt_of_le hhigh hnext, hready ▸ hfree⟩
  | queued page slot => exact ⟨hready ▸ h.1, hranges ▸ h.2⟩
  | marked | raised => exact hfull _ h

theorem DirtyFlush.Ok.mono {flush : DirtyFlush} (h : flush.Ok config st)
    (hstart : st'.start = st.start) (hnext : st.next ≤ st'.next)
    (hready : ∀ slot, st.ready slot = true → st'.ready slot = true) (hsent : st'.sent = st.sent)
    (hversion : ∀ page, st.version page ≤ st'.version page) : flush.Ok config st' := by
  cases flush with
  | scanning reserved stop =>
    obtain ⟨hstop, hreserved, hlow, hall⟩ := h
    exact ⟨hstop, Nat.le_trans hreserved hnext, hstart ▸ hlow,
      fun slot hslot hlt ↦ hready slot (hall slot (hstart ▸ hslot) hlt)⟩
  | scanned stop =>
    obtain ⟨hstop, hlow, hall⟩ := h
    exact ⟨Nat.le_trans hstop hnext, hstart ▸ hlow,
      fun slot hslot hlt ↦ hready slot (hall slot (hstart ▸ hslot) hlt)⟩
  | checked stop hasFullDirty =>
    obtain ⟨hstop, hlow, hall⟩ := h
    exact ⟨Nat.le_trans hstop hnext, hstart ▸ hlow,
      fun slot hslot hlt ↦ hready slot (hall slot (hstart ▸ hslot) hlt)⟩
  | sending held rest batch =>
    obtain ⟨hheld, hnodup, hbatch⟩ := h
    exact ⟨hheld, hnodup, fun entry hentry ↦
      ⟨hsent ▸ (hbatch entry hentry).1, Nat.le_trans (hbatch entry hentry).2 (hversion entry.1)⟩⟩
  | _ => exact h

theorem DirtyFlush.Holds.congr {flush : DirtyFlush} (h : flush.Holds st page)
    (hwritable : st'.writable page = st.writable page)
    (hversion : st'.version page = st.version page) :
    flush.Holds st' page := by
  cases flush with
  | protecting held rest => exact ⟨h.1, hwritable ▸ h.2⟩
  | sending held rest batch => exact ⟨h.1, hwritable.trans h.2.1, hversion ▸ h.2.2⟩
  | _ => exact h

theorem DirtyState.Covered.mono (h : st.Covered page)
    (hqueued : st.Queued page → st'.Queued page)
    (hfull : st.fullDirty page.allocation = true → st'.fullDirty page.allocation = true)
    (hflush : st'.flush = st.flush) (hwritable : st'.writable page = st.writable page)
    (hversion : st'.version page = st.version page) : st'.Covered page := by
  rcases h with h | h | h
  · exact Or.inl (hqueued h)
  · exact Or.inr (Or.inl (hfull h))
  · exact Or.inr (Or.inr (hflush ▸ h.congr hwritable hversion))

/-- A mark is still seen when the flag, its handler and the flush that looks for it remain. -/
theorem DirtyState.MarkSeen.mono {allocation : ℕ} (h : st.MarkSeen allocation)
    (hpending : st.fullDirtyPending = true → st'.fullDirtyPending = true)
    (hmarked : ∀ thread page, st.handlers.lookup thread = some (.marked page) →
      st'.handlers.lookup thread = some (.marked page))
    (hsweep : ∀ held rest, st.flush = .sweeping held rest → allocation ∈ rest →
      ∃ held' rest', st'.flush = .sweeping held' rest' ∧ allocation ∈ rest') :
    st'.MarkSeen allocation := by
  rcases h with h | ⟨thread, page, hlookup, hpage⟩ | ⟨held, rest, hflush, hrest⟩
  · exact Or.inl (hpending h)
  · exact Or.inr (Or.inl ⟨thread, page, hmarked thread page hlookup, hpage⟩)
  · exact Or.inr (Or.inr (hsweep held rest hflush hrest))

namespace DirtyInv

theorem init : DirtyInv config {} where
  bounds := le_rfl
  sent _ := le_rfl
  ready _ h := nomatch h
  handlers _ _ h := nomatch h
  distinct _ _ _ _ _ h := nomatch h
  marks _ h := nomatch h
  flush := trivial
  covered page h := by
    rcases h with h | h
    · exact nomatch h
    · exact absurd rfl h

/-! ## Handlers keep it

One lemma for each step of a handler. The last one, which enables writes, is where the condition is
used: nobody may have taken the entry or the mark in between. -/

section Handlers

variable (h : DirtyInv config st)

include h

theorem setHandler (thread : ℕ) (handler : FaultHandler) (hvalid : config.Valid handler.page)
    (hok : handler.Ok st)
    (hreserved : ∀ page slot, handler = .reserved page slot → ∀ thread' page',
      st.handlers.lookup thread' = some (.reserved page' slot) → thread' = thread)
    (hmark : ∀ page, st.handlers.lookup thread = some (.marked page) →
      handler = .marked page ∨ st.fullDirtyPending = true) :
    DirtyInv config (st.setHandler thread handler) where
  bounds := h.bounds
  sent := h.sent
  ready := h.ready
  handlers thread' handler' hlookup := by
    rcases lookup_insert_eq_some.mp hlookup with ⟨-, rfl⟩ | ⟨-, hlookup⟩
    · exact ⟨hvalid, hok.mono rfl le_rfl rfl rfl fun _ ↦ id⟩
    · obtain ⟨hvalid', hok'⟩ := h.handlers thread' handler' hlookup
      exact ⟨hvalid', hok'.mono rfl le_rfl rfl rfl fun _ ↦ id⟩
  distinct thread₁ thread₂ page page' slot hlookup hlookup' := by
    rcases lookup_insert_eq_some.mp hlookup with ⟨heq, hhandler⟩ | ⟨-, hold⟩
    · rcases lookup_insert_eq_some.mp hlookup' with ⟨heq', -⟩ | ⟨-, hold'⟩
      · exact heq.trans heq'.symm
      · exact heq.trans (hreserved page slot hhandler thread₂ page' hold').symm
    · rcases lookup_insert_eq_some.mp hlookup' with ⟨heq', hhandler⟩ | ⟨-, hold'⟩
      · exact (hreserved page' slot hhandler thread₁ page hold).trans heq'.symm
      · exact h.distinct thread₁ thread₂ page page' slot hold hold'
  marks allocation hfull := by
    obtain ⟨hmem, hseen⟩ := h.marks allocation hfull
    refine ⟨hmem, ?_⟩
    rcases hseen with hpending | ⟨thread', page, hlookup, hpage⟩ | hsweep
    · exact Or.inl hpending
    · rcases eq_or_ne thread' thread with rfl | hne
      · rcases hmark page hlookup with rfl | hpending
        · exact Or.inr (Or.inl ⟨thread', page, AList.lookup_insert _, hpage⟩)
        · exact Or.inl hpending
      · exact Or.inr (Or.inl ⟨thread', page, (AList.lookup_insert_ne hne).trans hlookup, hpage⟩)
    · exact Or.inr (Or.inr hsweep)
  flush := h.flush.mono rfl le_rfl (fun _ h ↦ h) rfl fun _ ↦ le_rfl
  covered page hneeds :=
    ⟨(h.covered page hneeds).1, (h.covered page hneeds).2.mono id id rfl rfl rfl⟩

theorem distinct_insert (thread : ℕ) {handler : FaultHandler}
    (hother : ∀ page slot, handler ≠ .reserved page slot) {thread₁ thread₂ : ℕ}
    {page₁ page₂ : HostPage} {slot : ℕ}
    (hlookup₁ : (st.handlers.insert thread handler).lookup thread₁ = some (.reserved page₁ slot))
    (hlookup₂ : (st.handlers.insert thread handler).lookup thread₂ = some (.reserved page₂ slot)) :
    thread₁ = thread₂ := by
  rcases lookup_insert_eq_some.mp hlookup₁ with ⟨-, heq⟩ | ⟨-, hold₁⟩
  · exact absurd heq (hother page₁ slot)
  · rcases lookup_insert_eq_some.mp hlookup₂ with ⟨-, heq⟩ | ⟨-, hold₂⟩
    · exact absurd heq (hother page₂ slot)
    · exact h.distinct thread₁ thread₂ page₁ page₂ slot hold₁ hold₂

theorem fault (hvalid : config.Valid page) (hnone : st.handlers.lookup thread = none) :
    DirtyInv config (st.setHandler thread (.faulted page)) := by
  apply h.setHandler thread (.faulted page) hvalid trivial
  · exact fun _ _ heq ↦ (nomatch heq)
  · exact fun _ hlookup ↦ (nomatch hnone.symm.trans hlookup)

theorem reserve (hlookup : st.handlers.lookup thread = some (.faulted page)) :
    DirtyInv config
      ({ st with next := st.next + 1 }.setHandler thread (.reserved page st.next)) := by
  have hgrown : DirtyInv config { st with next := st.next + 1 } := by
    constructor
    · exact Nat.le_succ_of_le h.bounds
    · exact h.sent
    · intro slot hready
      obtain ⟨hlow, hhigh, hvalid⟩ := h.ready slot hready
      exact ⟨hlow, Nat.lt_succ_of_lt hhigh, hvalid⟩
    · intro thread' handler hlookup'
      obtain ⟨hvalid, hok⟩ := h.handlers thread' handler hlookup'
      exact ⟨hvalid, hok.mono rfl (Nat.le_succ _) rfl rfl fun _ ↦ id⟩
    · exact h.distinct
    · exact h.marks
    · exact h.flush.mono rfl (Nat.le_succ _) (fun _ h ↦ h) rfl fun _ ↦ le_rfl
    · exact fun page hneeds ↦
        ⟨(h.covered page hneeds).1, (h.covered page hneeds).2.mono id id rfl rfl rfl⟩
  apply hgrown.setHandler thread (.reserved page st.next) (h.handlers thread _ hlookup).1
  · refine ⟨h.bounds, Nat.lt_succ_self _, ?_⟩
    by_contra hready
    exact absurd (h.ready st.next (eq_true_of_ne_false hready)).2.1 (Nat.lt_irrefl _)
  · rintro page' slot heq thread' page'' hlookup'
    obtain ⟨-, rfl⟩ := FaultHandler.reserved.inj heq
    exact absurd (h.handlers thread' _ hlookup').2.2.1 (Nat.lt_irrefl _)
  · intro page' hmarked
    exact nomatch hlookup.symm.trans hmarked

theorem refuse (hlookup : st.handlers.lookup thread = some (.faulted page)) :
    DirtyInv config (st.setHandler thread (.refused page)) := by
  apply h.setHandler thread (.refused page) (h.handlers thread _ hlookup).1 trivial
  · exact fun _ _ heq ↦ (nomatch heq)
  · exact fun _ hmarked ↦ (nomatch hlookup.symm.trans hmarked)

theorem publish (hlookup : st.handlers.lookup thread = some (.reserved page slot)) :
    DirtyInv config ({ st with
      ranges := Function.update st.ranges slot page
      ready := Function.update st.ready slot true }.setHandler thread (.queued page slot)) := by
  obtain ⟨hvalid, hlow, hhigh, hfree⟩ := h.handlers thread _ hlookup
  -- the slot was free, so no entry of the queue is overwritten
  have hne : ∀ slot', st.ready slot' = true → slot' ≠ slot := by
    rintro slot' hready rfl
    exact absurd (hready.symm.trans hfree) (by decide)
  have hready : ∀ slot', st.ready slot' = true →
      Function.update st.ready slot true slot' = true :=
    fun _ hslot' ↦ update_true_of_eq_true _ hslot'
  have hqueued : ∀ page', st.Queued page' →
      ∃ slot', Function.update st.ready slot true slot' = true ∧
        Function.update st.ranges slot page slot' = page' := by
    rintro page' ⟨slot', hslot', hpage'⟩
    exact ⟨slot', hready slot' hslot', (Function.update_of_ne (hne slot' hslot') _ _).trans hpage'⟩
  constructor
  · exact h.bounds
  · exact h.sent
  · intro slot' hslot'
    rcases eq_or_ne slot' slot with rfl | hslot
    · refine ⟨hlow, hhigh, ?_⟩
      simpa only [DirtyState.setHandler, Function.update_self, FaultHandler.page] using hvalid
    · have hold := h.ready slot' ((Function.update_of_ne hslot _ _).symm.trans hslot')
      refine ⟨hold.1, hold.2.1, ?_⟩
      simpa only [DirtyState.setHandler, Function.update_of_ne hslot] using hold.2.2
  · intro thread' handler hlookup'
    rcases lookup_insert_eq_some.mp hlookup' with ⟨-, rfl⟩ | ⟨hthread, hlookup'⟩
    · exact ⟨hvalid, Function.update_self _ _ _, Function.update_self _ _ _⟩
    · obtain ⟨hvalid', hok⟩ := h.handlers thread' handler hlookup'
      refine ⟨hvalid', ?_⟩
      cases handler with
      | reserved page' slot' =>
        -- two handlers never have the same slot reserved
        have hslot : slot' ≠ slot := by
          rintro rfl
          exact hthread (h.distinct thread' thread page' page slot' hlookup' hlookup)
        exact ⟨hok.1, hok.2.1, (Function.update_of_ne hslot _ _).trans hok.2.2⟩
      | queued page' slot' =>
        exact ⟨hready slot' hok.1, (Function.update_of_ne (hne slot' hok.1) _ _).trans hok.2⟩
      | _ => exact hok
  · intro thread₁ thread₂ page₁ page₂ slot' hlookup₁ hlookup₂
    exact h.distinct_insert thread (by rintro _ _ ⟨⟩) hlookup₁ hlookup₂
  · intro allocation hfull
    obtain ⟨hmem, hseen⟩ := h.marks allocation hfull
    refine ⟨hmem, hseen.mono id (fun thread' page' hmarked ↦ ?_) fun held rest hsweep hrest ↦
      ⟨held, rest, hsweep, hrest⟩⟩
    have hthread : thread' ≠ thread := by
      rintro rfl
      exact nomatch hlookup.symm.trans hmarked
    exact (AList.lookup_insert_ne hthread).trans hmarked
  · exact h.flush.mono rfl le_rfl hready rfl fun _ ↦ le_rfl
  · exact fun page' hneeds ↦
      ⟨(h.covered page' hneeds).1, (h.covered page' hneeds).2.mono (hqueued page') id rfl rfl rfl⟩

theorem mark (hlookup : st.handlers.lookup thread = some (.refused page)) :
    DirtyInv config ({ st with
      fullDirty := Function.update st.fullDirty page.allocation true }.setHandler thread
        (.marked page)) := by
  obtain ⟨hvalid, -⟩ := h.handlers thread _ hlookup
  have hfull : ∀ allocation, st.fullDirty allocation = true →
      Function.update st.fullDirty page.allocation true allocation = true :=
    fun _ hold ↦ update_true_of_eq_true _ hold
  constructor
  · exact h.bounds
  · exact h.sent
  · exact h.ready
  · intro thread' handler hlookup'
    rcases lookup_insert_eq_some.mp hlookup' with ⟨-, rfl⟩ | ⟨-, hlookup'⟩
    · exact ⟨hvalid, Function.update_self _ _ _⟩
    · obtain ⟨hvalid', hok⟩ := h.handlers thread' handler hlookup'
      exact ⟨hvalid', hok.mono rfl le_rfl rfl rfl hfull⟩
  · intro thread₁ thread₂ page₁ page₂ slot' hlookup₁ hlookup₂
    exact h.distinct_insert thread (by rintro _ _ ⟨⟩) hlookup₁ hlookup₂
  · intro allocation hmarked
    rcases eq_or_ne allocation page.allocation with rfl | hne
    · exact ⟨hvalid.1, Or.inr (Or.inl ⟨thread, page, AList.lookup_insert _, rfl⟩)⟩
    · obtain ⟨hmem, hseen⟩ :=
        h.marks allocation ((Function.update_of_ne hne _ _).symm.trans hmarked)
      refine ⟨hmem, hseen.mono id (fun thread' page' hmarked' ↦ ?_) fun held rest hsweep hrest ↦
        ⟨held, rest, hsweep, hrest⟩⟩
      have hthread : thread' ≠ thread := by
        rintro rfl
        exact nomatch hlookup.symm.trans hmarked'
      exact (AList.lookup_insert_ne hthread).trans hmarked'
  · exact h.flush.mono rfl le_rfl (fun _ h ↦ h) rfl fun _ ↦ le_rfl
  · exact fun page' hneeds ↦ ⟨(h.covered page' hneeds).1,
      (h.covered page' hneeds).2.mono id (hfull _) rfl rfl rfl⟩

theorem raise (hlookup : st.handlers.lookup thread = some (.marked page)) :
    DirtyInv config ({ st with fullDirtyPending := true }.setHandler thread (.raised page)) := by
  have hpending : DirtyInv config { st with fullDirtyPending := true } := by
    constructor
    · exact h.bounds
    · exact h.sent
    · exact h.ready
    · intro thread' handler hlookup'
      obtain ⟨hvalid, hok⟩ := h.handlers thread' handler hlookup'
      exact ⟨hvalid, hok.mono rfl le_rfl rfl rfl fun _ ↦ id⟩
    · exact h.distinct
    · exact fun allocation hfull ↦ ⟨(h.marks allocation hfull).1, Or.inl rfl⟩
    · exact h.flush.mono rfl le_rfl (fun _ h ↦ h) rfl fun _ ↦ le_rfl
    · exact fun page hneeds ↦
        ⟨(h.covered page hneeds).1, (h.covered page hneeds).2.mono id id rfl rfl rfl⟩
  obtain ⟨hvalid, hfull⟩ := h.handlers thread _ hlookup
  apply hpending.setHandler thread (.raised page) hvalid hfull
  · exact fun _ _ heq ↦ (nomatch heq)
  · exact fun _ _ ↦ Or.inr rfl

theorem unprotect (hlookup : st.handlers.lookup thread = some handler)
    (hdone : handler = .queued page slot ∨ handler = .raised page) :
    DirtyInv config { st with
      writable := Function.update st.writable page true
      handlers := st.handlers.erase thread } := by
  obtain ⟨hvalid, hok⟩ := h.handlers thread _ hlookup
  -- the page is opened, so something has to account for it
  have haccounted : config.Valid page ∧ (st.Queued page ∨ st.fullDirty page.allocation = true) := by
    rcases hdone with rfl | rfl
    · exact ⟨hvalid, Or.inl ⟨slot, hok⟩⟩
    · exact ⟨hvalid, Or.inr hok⟩
  constructor
  · exact h.bounds
  · exact h.sent
  · exact h.ready
  · intro thread' handler' hlookup'
    obtain ⟨hvalid', hok'⟩ := h.handlers thread' handler' (lookup_erase_eq_some.mp hlookup').2
    exact ⟨hvalid', hok'.mono rfl le_rfl rfl rfl fun _ ↦ id⟩
  · intro thread₁ thread₂ page₁ page₂ slot' hlookup₁ hlookup₂
    exact h.distinct thread₁ thread₂ page₁ page₂ slot' (lookup_erase_eq_some.mp hlookup₁).2
      (lookup_erase_eq_some.mp hlookup₂).2
  · intro allocation hfull
    obtain ⟨hmem, hseen⟩ := h.marks allocation hfull
    refine ⟨hmem, hseen.mono id (fun thread' page' hmarked ↦ ?_) fun held rest hsweep hrest ↦
      ⟨held, rest, hsweep, hrest⟩⟩
    -- the handler that is done is past its mark
    have hthread : thread' ≠ thread := by
      rintro rfl
      obtain rfl := Option.some.inj (hlookup.symm.trans hmarked)
      rcases hdone with heq | heq <;> exact nomatch heq
    exact lookup_erase_eq_some.mpr ⟨hthread, hmarked⟩
  · exact h.flush.mono rfl le_rfl (fun _ h ↦ h) rfl fun _ ↦ le_rfl
  · intro page' hneeds
    rcases eq_or_ne page' page with rfl | hne
    · refine ⟨haccounted.1, ?_⟩
      rcases haccounted.2 with hqueued | hfull
      · exact Or.inl hqueued
      · exact Or.inr (Or.inl hfull)
    · have hold : st.Needs page' := by
        rcases hneeds with hwritable | hsent
        · exact Or.inl ((Function.update_of_ne hne _ _).symm.trans hwritable)
        · exact Or.inr hsent
      exact ⟨(h.covered page' hold).1, (h.covered page' hold).2.mono id id rfl
        (Function.update_of_ne hne _ _) rfl⟩

theorem hostWrite (hwritable : st.writable page = true) :
    DirtyInv config { st with
      version := Function.update st.version page (st.version page + 1) } := by
  have hversion : ∀ page',
      st.version page' ≤ Function.update st.version page (st.version page + 1) page' := by
    intro page'
    rcases eq_or_ne page' page with rfl | hne
    · rw [Function.update_self]
      exact Nat.le_succ _
    · rw [Function.update_of_ne hne]
  constructor
  · exact h.bounds
  · exact fun page' ↦ Nat.le_trans (h.sent page') (hversion page')
  · exact h.ready
  · intro thread' handler hlookup'
    obtain ⟨hvalid, hok⟩ := h.handlers thread' handler hlookup'
    exact ⟨hvalid, hok.mono rfl le_rfl rfl rfl fun _ ↦ id⟩
  · exact h.distinct
  · exact h.marks
  · exact h.flush.mono rfl le_rfl (fun _ h ↦ h) rfl hversion
  · intro page' hneeds
    rcases eq_or_ne page' page with rfl | hne
    · obtain ⟨hvalid, hcovered⟩ := h.covered page' (Or.inl hwritable)
      refine ⟨hvalid, ?_⟩
      rcases hcovered with hqueued | hfull | hholds
      · exact Or.inl hqueued
      · exact Or.inr (Or.inl hfull)
      · refine Or.inr (Or.inr ?_)
        simp only at hholds ⊢
        cases hphase : st.flush with
        | sending held rest batch =>
          -- a page that is being sent is not open to writes
          rw [hphase] at hholds
          exact absurd (hwritable.symm.trans hholds.2.1) (by decide)
        | _ =>
          rw [hphase] at hholds
          exact hholds
    · have hold : st.Needs page' := by
        rcases hneeds with hwritable' | hsent
        · exact Or.inl hwritable'
        · exact Or.inr fun heq ↦ hsent (heq.trans (Function.update_of_ne hne _ _).symm)
      exact ⟨(h.covered page' hold).1, (h.covered page' hold).2.mono id id rfl rfl
        (Function.update_of_ne hne _ _)⟩

end Handlers

/-! ## Flushes keep it

A flush goes through the queue, then through the marks, then protects, sends and, after a failure,
marks again. At every point it holds the pages it has taken, so that the ones it has not dealt with
yet stay accounted for. -/

section Flushes

-- makes the equations of the steps once, before the proofs that use them
attribute [local simp] DirtyState.flushStep

variable {step : DirtyStep} (h : DirtyInv config st)

include h

theorem setFlush {phase : DirtyFlush} (hflush : st.flush = phase) (flush : DirtyFlush)
    (hok : flush.Ok config st)
    (hsweep : ∀ held rest, phase = .sweeping held rest → ∀ allocation ∈ rest,
      st.fullDirty allocation = true → ∃ held' rest', flush = .sweeping held' rest' ∧
        allocation ∈ rest')
    (hholds : ∀ page, phase.Holds st page → flush.Holds st page) :
    DirtyInv config { st with flush := flush } := by
  subst hflush
  constructor
  · exact h.bounds
  · exact h.sent
  · exact h.ready
  · intro thread handler hlookup
    obtain ⟨hvalid, hhandler⟩ := h.handlers thread handler hlookup
    exact ⟨hvalid, hhandler.mono rfl le_rfl rfl rfl fun _ ↦ id⟩
  · exact h.distinct
  · intro allocation hfull
    obtain ⟨hmem, hseen⟩ := h.marks allocation hfull
    exact ⟨hmem, hseen.mono id (fun _ _ ↦ id) fun held rest hflush hrest ↦
      hsweep held rest hflush allocation hrest hfull⟩
  · exact hok.mono rfl le_rfl (fun _ h ↦ h) rfl fun _ ↦ le_rfl
  · intro page hneeds
    obtain ⟨hvalid, hcovered⟩ := h.covered page hneeds
    refine ⟨hvalid, ?_⟩
    rcases hcovered with hqueued | hfull | hheld
    · exact Or.inl hqueued
    · exact Or.inr (Or.inl hfull)
    · exact Or.inr (Or.inr ((hholds page hheld).congr rfl rfl))

/-- The entries up to `stop` are taken; the ends of the queue move so that the others stay in it. -/
theorem take {stop start next : ℕ} {hasFullDirty : Bool}
    (hflush : st.flush = .checked stop hasFullDirty)
    (hcond : ∀ slot < stop, st.start ≤ slot → st.NoHandler (·.HoldsSlot slot))
    (hends : start ≤ next)
    (hrest : ∀ slot, stop ≤ slot → slot < st.next → start ≤ slot ∧ slot < next) :
    DirtyInv config { st with
      ready := fun slot ↦ if st.start ≤ slot ∧ slot < stop then false else st.ready slot
      next := next
      start := start
      flush := .taken (st.entriesTo stop) hasFullDirty } := by
  obtain ⟨-, -, hall⟩ : DirtyFlush.Ok config st (.checked stop hasFullDirty) := hflush ▸ h.flush
  have hkept : ∀ slot, st.ready slot = true → stop ≤ slot →
      (if st.start ≤ slot ∧ slot < stop then false else st.ready slot) = true := by
    intro slot hready hslot
    rw [if_neg fun hin ↦ absurd hin.2 (Nat.not_lt.mpr hslot)]
    exact hready
  constructor
  · exact hends
  · exact h.sent
  · intro slot hready
    obtain ⟨hout, hready⟩ : ¬(st.start ≤ slot ∧ slot < stop) ∧ st.ready slot = true := by
      by_cases hin : st.start ≤ slot ∧ slot < stop
      · simp only [if_pos hin, Bool.false_eq_true] at hready
      · exact ⟨hin, by simpa only [if_neg hin] using hready⟩
    obtain ⟨hlow, hhigh, hvalid⟩ := h.ready slot hready
    obtain ⟨hlow', hhigh'⟩ := hrest slot (by omega) hhigh
    exact ⟨hlow', hhigh', hvalid⟩
  · intro thread handler hlookup
    obtain ⟨hvalid, hok⟩ := h.handlers thread handler hlookup
    refine ⟨hvalid, ?_⟩
    cases handler with
    | reserved page slot =>
      -- its slot is not ready, so the flush did not come as far
      obtain ⟨hlow, hhigh, hfree⟩ := hok
      have hslot : stop ≤ slot := by
        by_contra hlt
        exact absurd ((hall slot hlow (Nat.not_le.mp hlt)).symm.trans hfree) (by decide)
      obtain ⟨hlow', hhigh'⟩ := hrest slot hslot hhigh
      refine ⟨hlow', hhigh', ?_⟩
      simp only [hfree, ite_self]
    | queued page slot =>
      -- its entry is one of those the condition leaves in the queue
      have hslot : stop ≤ slot := by
        by_contra hlt
        exact hcond slot (Nat.not_le.mp hlt) (h.ready slot hok.1).1 thread
          (mem_keys_of_lookup hlookup) _ hlookup rfl
      exact ⟨hkept slot hok.1 hslot, hok.2⟩
    | _ => exact hok
  · exact h.distinct
  · intro allocation hfull
    obtain ⟨hmem, hseen⟩ := h.marks allocation hfull
    exact ⟨hmem, hseen.mono id (fun _ _ ↦ id) fun _ _ hsweep _ ↦ nomatch hflush.symm.trans hsweep⟩
  · intro page hpage
    obtain ⟨slot, hlow, hhigh, rfl⟩ := DirtyState.mem_entriesTo.mp hpage
    exact (h.ready slot (hall slot hlow hhigh)).2.2
  · intro page hneeds
    obtain ⟨hvalid, hcovered⟩ := h.covered page hneeds
    refine ⟨hvalid, ?_⟩
    rcases hcovered with ⟨slot, hready, hpage⟩ | hfull | hheld
    · rcases Nat.lt_or_ge slot stop with hlt | hge
      · exact Or.inr (Or.inr (DirtyState.mem_entriesTo.mpr
          ⟨slot, (h.ready slot hready).1, hlt, hpage⟩))
      · exact Or.inl ⟨slot, hkept slot hready hge, hpage⟩
    · exact Or.inr (Or.inl hfull)
    · rw [hflush] at hheld
      exact hheld.elim

theorem exchange {held : List HostPage} {hasFullDirty : Bool}
    (hflush : st.flush = .taken held hasFullDirty) :
    DirtyInv config { st with
      fullDirtyPending := false
      flush := .sweeping held config.allocations } := by
  constructor
  · exact h.bounds
  · exact h.sent
  · exact h.ready
  · intro thread handler hlookup
    obtain ⟨hvalid, hok⟩ := h.handlers thread handler hlookup
    exact ⟨hvalid, hok.mono rfl le_rfl rfl rfl fun _ ↦ id⟩
  · exact h.distinct
  · intro allocation hfull
    have hmem := (h.marks allocation hfull).1
    exact ⟨hmem, Or.inr (Or.inr ⟨held, config.allocations, rfl, hmem⟩)⟩
  · have hok := h.flush
    rw [hflush] at hok
    exact hok
  · intro page hneeds
    obtain ⟨hvalid, hcovered⟩ := h.covered page hneeds
    refine ⟨hvalid, ?_⟩
    rcases hcovered with hqueued | hfull | hheld
    · exact Or.inl hqueued
    · exact Or.inr (Or.inl hfull)
    · rw [hflush] at hheld
      exact Or.inr (Or.inr hheld)

theorem sweep {held : List HostPage} {allocation : ℕ} {rest : List ℕ}
    (hflush : st.flush = .sweeping held (allocation :: rest))
    (hcond : st.NoHandler (·.HoldsMark allocation)) (hmark : st.fullDirty allocation = true) :
    DirtyInv config { st with
      fullDirty := Function.update st.fullDirty allocation false
      flush := .sweeping (held ++ config.pagesOf allocation) rest } := by
  have hother : ∀ allocation', Function.update st.fullDirty allocation false allocation' = true →
      allocation' ≠ allocation ∧ st.fullDirty allocation' = true := by
    intro allocation' hfull
    rcases eq_or_of_update hfull with ⟨-, heq⟩ | hold
    · exact nomatch heq
    · exact hold
  -- no handler is about to use the mark that is cleared, by the condition on the step
  have hmarker : ∀ thread handler, st.handlers.lookup thread = some handler →
      ¬handler.HoldsMark allocation := by
    intro thread handler hlookup
    exact hcond thread (mem_keys_of_lookup hlookup) handler hlookup
  constructor
  · exact h.bounds
  · exact h.sent
  · exact h.ready
  · intro thread handler hlookup
    obtain ⟨hvalid, hok⟩ := h.handlers thread handler hlookup
    have hfree := hmarker thread handler hlookup
    refine ⟨hvalid, ?_⟩
    cases handler with
    | marked page => exact (Function.update_of_ne hfree _ _).trans hok
    | raised page => exact (Function.update_of_ne hfree _ _).trans hok
    | _ => exact hok
  · exact h.distinct
  · intro allocation' hfull
    obtain ⟨hne, hfull⟩ := hother allocation' hfull
    obtain ⟨hmem, hseen⟩ := h.marks allocation' hfull
    refine ⟨hmem, hseen.mono id (fun _ _ ↦ id) fun held' rest' hsweep hrest ↦ ?_⟩
    obtain ⟨-, rfl⟩ := DirtyFlush.sweeping.inj (hflush.symm.trans hsweep)
    -- the allocation that was swept is no longer ahead; every other one is where it was
    rcases List.mem_cons.mp hrest with heq | hrest
    · exact absurd heq hne
    · exact ⟨_, rest, rfl, hrest⟩
  · have hok := h.flush
    rw [hflush] at hok
    intro page hpage
    rcases List.mem_append.mp hpage with hpage | hpage
    · exact hok page hpage
    · obtain ⟨rfl, hindex⟩ := mem_pagesOf.mp hpage
      exact ⟨(h.marks _ hmark).1, hindex⟩
  · intro page hneeds
    obtain ⟨hvalid, hcovered⟩ := h.covered page hneeds
    refine ⟨hvalid, ?_⟩
    rcases hcovered with hqueued | hfull | hheld
    · exact Or.inl hqueued
    · rcases eq_or_ne page.allocation allocation with heq | hne
      -- what only the mark accounted for is held by the flush now
      · refine Or.inr (Or.inr (List.mem_append_right _ (mem_pagesOf.mpr ⟨heq, ?_⟩)))
        exact heq ▸ hvalid.2
      · exact Or.inr (Or.inl ((Function.update_of_ne hne _ _).trans hfull))
    · rw [hflush] at hheld
      exact Or.inr (Or.inr (List.mem_append_left _ hheld))

theorem protect {held rest : List HostPage} (hflush : st.flush = .protecting held (page :: rest)) :
    DirtyInv config { st with
      writable := Function.update st.writable page false
      flush := .protecting held rest } := by
  constructor
  · exact h.bounds
  · exact h.sent
  · exact h.ready
  · intro thread handler hlookup
    obtain ⟨hvalid, hok⟩ := h.handlers thread handler hlookup
    exact ⟨hvalid, hok.mono rfl le_rfl rfl rfl fun _ ↦ id⟩
  · exact h.distinct
  · intro allocation hfull
    obtain ⟨hmem, hseen⟩ := h.marks allocation hfull
    exact ⟨hmem, hseen.mono id (fun _ _ ↦ id) fun _ _ hsweep _ ↦ nomatch hflush.symm.trans hsweep⟩
  · have hok := h.flush
    rw [hflush] at hok
    exact hok
  · intro page' hneeds
    have hold : st.Needs page' := by
      rcases hneeds with hwritable | hsent
      · rcases eq_or_of_update hwritable with ⟨-, heq⟩ | ⟨-, hwritable⟩
        · exact nomatch heq
        · exact Or.inl hwritable
      · exact Or.inr hsent
    obtain ⟨hvalid, hcovered⟩ := h.covered page' hold
    refine ⟨hvalid, ?_⟩
    rcases hcovered with hqueued | hfull | hheld
    · exact Or.inl hqueued
    · exact Or.inr (Or.inl hfull)
    · rw [hflush] at hheld
      refine Or.inr (Or.inr ⟨hheld.1, ?_⟩)
      intro hwritable
      rcases eq_or_of_update hwritable with ⟨-, heq⟩ | ⟨hne, hwritable⟩
      · exact nomatch heq
      · exact (List.mem_cons.mp (hheld.2 hwritable)).resolve_left hne

theorem sendBatch {held rest : List HostPage} {batch : List (HostPage × ℕ)}
    (hflush : st.flush = .sending held rest batch) :
    DirtyInv config { st with
      sent := DirtyState.deliver st.sent batch
      flush := .sending held rest [] } := by
  obtain ⟨hheld, hnodup, hread⟩ : DirtyFlush.Ok config st (.sending held rest batch) :=
    hflush ▸ h.flush
  obtain ⟨hbatch, hrest, -⟩ := List.nodup_append.mp hnodup
  constructor
  · exact h.bounds
  · intro page
    by_cases hmem : page ∈ batch.map Prod.fst
    · obtain ⟨⟨page, version⟩, hentry, rfl⟩ := List.mem_map.mp hmem
      exact Nat.le_trans (Nat.le_of_eq (DirtyState.deliver_of_mem hbatch hentry)) (hread _ hentry).2
    · exact Nat.le_trans (Nat.le_of_eq (DirtyState.deliver_of_notMem hmem)) (h.sent page)
  · exact h.ready
  · intro thread handler hlookup
    obtain ⟨hvalid, hok⟩ := h.handlers thread handler hlookup
    exact ⟨hvalid, hok.mono rfl le_rfl rfl rfl fun _ ↦ id⟩
  · exact h.distinct
  · intro allocation hfull
    obtain ⟨hmem, hseen⟩ := h.marks allocation hfull
    exact ⟨hmem, hseen.mono id (fun _ _ ↦ id) fun _ _ hsweep _ ↦ nomatch hflush.symm.trans hsweep⟩
  · exact ⟨hheld, hrest, fun _ hentry ↦ nomatch hentry⟩
  · intro page hneeds
    have hold : st.Needs page := by
      rcases hneeds with hwritable | hsent
      · exact Or.inl hwritable
      · refine Or.inr fun heq ↦ hsent ?_
        by_cases hmem : page ∈ batch.map Prod.fst
        · -- it was read after it was last sent
          obtain ⟨⟨page, version⟩, hentry, rfl⟩ := List.mem_map.mp hmem
          obtain ⟨hlow, hhigh⟩ := hread _ hentry
          exact (DirtyState.deliver_of_mem hbatch hentry).trans
            (Nat.le_antisymm hhigh (heq ▸ hlow))
        · exact (DirtyState.deliver_of_notMem hmem).trans heq
    obtain ⟨hvalid, hcovered⟩ := h.covered page hold
    refine ⟨hvalid, ?_⟩
    rcases hcovered with hqueued | hfull | hpage
    · exact Or.inl hqueued
    · exact Or.inr (Or.inl hfull)
    · rw [hflush] at hpage
      obtain ⟨hmem, hwritable, hpage⟩ := hpage
      refine Or.inr (Or.inr ⟨hmem, hwritable, ?_⟩)
      rcases hpage with hpage | hentry
      · exact Or.inl hpage
      · rcases hneeds with hneeds | hneeds
        · exact absurd (hneeds.symm.trans hwritable) (by decide)
        · exact absurd (DirtyState.deliver_of_mem hbatch hentry) hneeds

/-- After a failure the allocations of what was taken are marked. -/
theorem restore {rest : List HostPage} (hflush : st.flush = .restoring (page :: rest)) :
    DirtyInv config { st with
      fullDirty := Function.update st.fullDirty page.allocation true
      fullDirtyPending := true
      flush := .restoring rest } := by
  have hok : ∀ page' ∈ page :: rest, config.Valid page' := by
    have hok := h.flush
    rw [hflush] at hok
    exact hok
  have hmark : ∀ allocation, st.fullDirty allocation = true →
      Function.update st.fullDirty page.allocation true allocation = true :=
    fun _ hold ↦ update_true_of_eq_true _ hold
  constructor
  · exact h.bounds
  · exact h.sent
  · exact h.ready
  · intro thread handler hlookup
    obtain ⟨hvalid, hhandler⟩ := h.handlers thread handler hlookup
    exact ⟨hvalid, hhandler.mono rfl le_rfl rfl rfl hmark⟩
  · exact h.distinct
  · intro allocation hfull
    rcases eq_or_of_update hfull with ⟨rfl, -⟩ | ⟨-, hfull⟩
    · exact ⟨(hok page List.mem_cons_self).1, Or.inl rfl⟩
    · exact ⟨(h.marks allocation hfull).1, Or.inl rfl⟩
  · exact fun page' hpage' ↦ hok page' (List.mem_cons_of_mem _ hpage')
  · intro page' hneeds
    obtain ⟨hvalid, hcovered⟩ := h.covered page' hneeds
    refine ⟨hvalid, ?_⟩
    rcases hcovered with hqueued | hfull | hheld
    · exact Or.inl hqueued
    · exact Or.inr (Or.inl (hmark _ hfull))
    · rw [hflush] at hheld
      rcases List.mem_cons.mp hheld with rfl | hrest
      · exact Or.inr (Or.inl (Function.update_self _ _ _))
      · exact Or.inr (Or.inr hrest)

theorem idleStep (hflush : st.flush = .idle)
    (hstep : st.flushStep config .idle step = some st') : DirtyInv config st' := by
  cases step with
  | flushStart =>
    obtain rfl := Option.some.inj hstep
    apply h.setFlush hflush
    · exact ⟨h.bounds, le_rfl, le_rfl, fun slot hlow hhigh ↦
        absurd hhigh (Nat.not_lt.mpr hlow)⟩
    · exact fun _ _ hsweep ↦ nomatch hsweep
    · exact fun _ hheld ↦ hheld.elim
  | _ => exact nomatch hstep

theorem scanningStep {reserved stop : ℕ} (hflush : st.flush = .scanning reserved stop)
    (hstep : st.flushStep config (.scanning reserved stop) step = some st') :
    DirtyInv config st' := by
  obtain ⟨hstop, hreserved, hlow, hall⟩ : DirtyFlush.Ok config st (.scanning reserved stop) :=
    hflush ▸ h.flush
  cases step with
  | scan =>
    obtain ⟨⟨hlt, hready⟩, rfl⟩ := Option.ite_some_none_eq_some.mp hstep
    apply h.setFlush hflush
    · refine ⟨hlt, hreserved, Nat.le_succ_of_le hlow, ?_⟩
      intro slot hslot hhigh
      rcases Nat.lt_succ_iff_lt_or_eq.mp hhigh with hhigh | rfl
      · exact hall slot hslot hhigh
      · exact hready
    · exact fun _ _ hsweep ↦ nomatch hsweep
    · exact fun _ hheld ↦ hheld.elim
  | scanStop =>
    obtain ⟨-, heq⟩ := Option.ite_none_left_eq_some.mp hstep
    obtain rfl := Option.some.inj heq
    apply h.setFlush hflush
    · exact ⟨Nat.le_trans hstop hreserved, hlow, hall⟩
    · exact fun _ _ hsweep ↦ nomatch hsweep
    · exact fun _ hheld ↦ hheld.elim
  | _ => exact nomatch hstep

theorem scannedStep {stop : ℕ} (hflush : st.flush = .scanned stop)
    (hstep : st.flushStep config (.scanned stop) step = some st') : DirtyInv config st' := by
  have hok : DirtyFlush.Ok config st (.scanned stop) := hflush ▸ h.flush
  cases step with
  | readFullDirty =>
    simp only [DirtyState.flushStep] at hstep
    split_ifs at hstep with hnothing
    · obtain rfl := Option.some.inj hstep
      apply h.setFlush hflush
      · exact trivial
      · exact fun _ _ hsweep ↦ nomatch hsweep
      · exact fun _ hheld ↦ hheld.elim
    · obtain rfl := Option.some.inj hstep
      apply h.setFlush hflush
      · exact hok
      · exact fun _ _ hsweep ↦ nomatch hsweep
      · exact fun _ hheld ↦ hheld.elim
  | _ => exact nomatch hstep

theorem checkedStep {stop : ℕ} {hasFullDirty : Bool}
    (hflush : st.flush = .checked stop hasFullDirty) (hcond : DirtyCond st step)
    (hstep : st.flushStep config (.checked stop hasFullDirty) step = some st') :
    DirtyInv config st' := by
  obtain ⟨hstop, -, -⟩ : DirtyFlush.Ok config st (.checked stop hasFullDirty) := hflush ▸ h.flush
  cases step with
  | take =>
    have hfree : ∀ slot < stop, st.start ≤ slot → st.NoHandler (·.HoldsSlot slot) := by
      simpa only [DirtyCond, hflush] using hcond
    simp only [DirtyState.flushStep] at hstep
    split_ifs at hstep with hnext
    · obtain rfl := Option.some.inj hstep
      apply h.take hflush hfree le_rfl
      exact fun slot hge hlt ↦ absurd (hnext ▸ hlt) (Nat.not_lt.mpr hge)
    · obtain rfl := Option.some.inj hstep
      exact h.take hflush hfree hstop fun slot hge hlt ↦ ⟨hge, hlt⟩
  | _ => exact nomatch hstep

theorem takenStep {held : List HostPage} {hasFullDirty : Bool}
    (hflush : st.flush = .taken held hasFullDirty)
    (hstep : st.flushStep config (.taken held hasFullDirty) step = some st') :
    DirtyInv config st' := by
  have hok : DirtyFlush.Ok config st (.taken held hasFullDirty) := hflush ▸ h.flush
  cases step with
  | exchangeFullDirty =>
    simp only [DirtyState.flushStep] at hstep
    split_ifs at hstep
    · obtain rfl := Option.some.inj hstep
      exact h.exchange hflush
    · obtain rfl := Option.some.inj hstep
      apply h.setFlush hflush
      · exact hok
      · exact fun _ _ hsweep ↦ nomatch hsweep
      · exact fun _ ↦ id
  | _ => exact nomatch hstep

theorem sweepingStep {held : List HostPage} {rest : List ℕ}
    (hflush : st.flush = .sweeping held rest) (hcond : DirtyCond st step)
    (hstep : st.flushStep config (.sweeping held rest) step = some st') :
    DirtyInv config st' := by
  have hok : DirtyFlush.Ok config st (.sweeping held rest) := hflush ▸ h.flush
  cases rest with
  | nil =>
    cases step with
    | sweepDone sorted =>
      simp only [DirtyState.flushStep] at hstep
      split_ifs at hstep with hempty hsorted
      · obtain rfl := Option.some.inj hstep
        apply h.setFlush hflush
        · exact trivial
        · rintro _ _ ⟨⟩ allocation hrest
          exact nomatch hrest
        · intro page hheld
          obtain rfl := hempty
          exact nomatch hheld
      · obtain rfl := Option.some.inj hstep
        apply h.setFlush hflush
        -- what is held is reordered, and all of it will be protected
        · exact fun page hpage ↦ hok page (hsorted.mem_iff.mp hpage)
        · rintro _ _ ⟨⟩ allocation hrest
          exact nomatch hrest
        · intro page hheld
          have hpage : page ∈ sorted := hsorted.mem_iff.mpr hheld
          exact ⟨hpage, fun _ ↦ List.mem_dedup.mpr hpage⟩
    | _ => exact nomatch hstep
  | cons allocation rest =>
    cases step with
    | sweep =>
      have hfree : st.NoHandler (·.HoldsMark allocation) := by
        simpa only [DirtyCond, hflush] using hcond
      simp only [DirtyState.flushStep] at hstep
      split_ifs at hstep with hmark
      · obtain rfl := Option.some.inj hstep
        exact h.sweep hflush hfree hmark
      · obtain rfl := Option.some.inj hstep
        apply h.setFlush hflush
        · exact hok
        · rintro _ _ ⟨⟩ allocation' hrest hfull
          rcases List.mem_cons.mp hrest with rfl | hrest
          · exact absurd hfull hmark
          · exact ⟨held, rest, rfl, hrest⟩
        · exact fun _ ↦ id
    | _ => exact nomatch hstep

theorem protectingStep {held rest : List HostPage} (hflush : st.flush = .protecting held rest)
    (hstep : st.flushStep config (.protecting held rest) step = some st') :
    DirtyInv config st' := by
  have hok : DirtyFlush.Ok config st (.protecting held rest) := hflush ▸ h.flush
  have hfail : st.flushStep config (.protecting held rest) .flushFail =
      some { st with flush := .restoring held } := by
    cases rest <;> rfl
  cases step with
  | protect =>
    cases rest with
    | nil => exact nomatch hstep
    | cons page rest =>
      obtain rfl := Option.some.inj hstep
      exact h.protect hflush
  | protectDone =>
    cases rest with
    | nil =>
      obtain rfl := Option.some.inj hstep
      apply h.setFlush hflush
      · exact ⟨hok, List.nodup_dedup _, fun _ hentry ↦ nomatch hentry⟩
      · exact fun _ _ hsweep ↦ nomatch hsweep
      · rintro page ⟨hpage, hwritable⟩
        refine ⟨hpage, ?_, Or.inl (List.mem_dedup.mpr hpage)⟩
        exact eq_false_of_ne_true fun htrue ↦ nomatch hwritable htrue
    | cons => exact nomatch hstep
  | flushFail =>
    obtain rfl := Option.some.inj (hfail.symm.trans hstep)
    apply h.setFlush hflush
    · exact hok
    · exact fun _ _ hsweep ↦ nomatch hsweep
    · exact fun page hheld ↦ hheld.1
  | _ => cases rest <;> exact nomatch hstep

theorem sendingStep {held rest : List HostPage} {batch : List (HostPage × ℕ)}
    (hflush : st.flush = .sending held rest batch)
    (hstep : st.flushStep config (.sending held rest batch) step = some st') :
    DirtyInv config st' := by
  obtain ⟨hvalid, hnodup, hread⟩ : DirtyFlush.Ok config st (.sending held rest batch) :=
    hflush ▸ h.flush
  have hsend : st.flushStep config (.sending held rest batch) .sendBatch = some { st with
      sent := DirtyState.deliver st.sent batch
      flush := .sending held rest [] } := by
    cases rest <;> rfl
  have hfail : st.flushStep config (.sending held rest batch) .flushFail =
      some { st with flush := .restoring held } := by
    cases rest <;> rfl
  cases step with
  | readPage =>
    cases rest with
    | nil => exact nomatch hstep
    | cons page rest =>
      -- the page goes from those to be read to the batch, with the content it has now
      obtain rfl := Option.some.inj hstep
      apply h.setFlush hflush
      · refine ⟨hvalid, ?_, ?_⟩
        · rw [List.map_append, List.map_singleton, List.append_assoc, List.singleton_append]
          exact hnodup
        · intro entry hentry
          rcases List.mem_append.mp hentry with hentry | hentry
          · exact hread entry hentry
          · obtain rfl := List.mem_singleton.mp hentry
            exact ⟨h.sent page, le_rfl⟩
      · exact fun _ _ hsweep ↦ nomatch hsweep
      · rintro page' ⟨hpage, hwritable, hread⟩
        refine ⟨hpage, hwritable, ?_⟩
        rcases hread with hrest | hentry
        · rcases List.mem_cons.mp hrest with rfl | hrest
          · exact Or.inr (List.mem_append_right _ List.mem_cons_self)
          · exact Or.inl hrest
        · exact Or.inr (List.mem_append_left _ hentry)
  | sendBatch =>
    obtain rfl := Option.some.inj (hsend.symm.trans hstep)
    exact h.sendBatch hflush
  | flushDone =>
    cases rest with
    | nil =>
      cases batch with
      | nil =>
        obtain rfl := Option.some.inj hstep
        -- every page that was held has been read, and every batch has been sent
        apply h.setFlush hflush
        · exact trivial
        · exact fun _ _ hsweep ↦ nomatch hsweep
        · rintro page ⟨-, -, hrest | hentry⟩
          · exact nomatch hrest
          · exact nomatch hentry
      | cons => exact nomatch hstep
    | cons => exact nomatch hstep
  | flushFail =>
    obtain rfl := Option.some.inj (hfail.symm.trans hstep)
    -- what was sent already may stay queued: it is restored with the rest
    apply h.setFlush hflush
    · exact hvalid
    · exact fun _ _ hsweep ↦ nomatch hsweep
    · exact fun page hheld ↦ hheld.1
  | _ => cases rest <;> cases batch <;> exact nomatch hstep

theorem restoringStep {rest : List HostPage} (hflush : st.flush = .restoring rest)
    (hstep : st.flushStep config (.restoring rest) step = some st') : DirtyInv config st' := by
  cases step with
  | restore =>
    cases rest with
    | nil => exact nomatch hstep
    | cons page rest =>
      obtain rfl := Option.some.inj hstep
      exact h.restore hflush
  | restoreDone =>
    cases rest with
    | nil =>
      obtain rfl := Option.some.inj hstep
      apply h.setFlush hflush
      · exact trivial
      · exact fun _ _ hsweep ↦ nomatch hsweep
      · exact fun _ hheld ↦ nomatch hheld
    | cons => exact nomatch hstep
  | _ => cases rest <;> exact nomatch hstep

theorem flushStep (hcond : DirtyCond st step)
    (hstep : st.flushStep config st.flush step = some st') : DirtyInv config st' := by
  cases hflush : st.flush with
  | idle => exact h.idleStep hflush (hflush ▸ hstep)
  | scanning => exact h.scanningStep hflush (hflush ▸ hstep)
  | scanned => exact h.scannedStep hflush (hflush ▸ hstep)
  | checked => exact h.checkedStep hflush hcond (hflush ▸ hstep)
  | taken => exact h.takenStep hflush (hflush ▸ hstep)
  | sweeping => exact h.sweepingStep hflush hcond (hflush ▸ hstep)
  | protecting => exact h.protectingStep hflush (hflush ▸ hstep)
  | sending => exact h.sendingStep hflush (hflush ▸ hstep)
  | restoring => exact h.restoringStep hflush (hflush ▸ hstep)

end Flushes

theorem handlerStep (h : DirtyInv config st) {step : DirtyStep}
    (hlookup : st.handlers.lookup thread = some handler)
    (hstep : st.handlerStep config thread handler step = some st') : DirtyInv config st' := by
  cases handler with
  | faulted page =>
    cases step with
    | reserve =>
      simp only [DirtyState.handlerStep] at hstep
      split_ifs at hstep
      · obtain rfl := Option.some.inj hstep
        exact h.reserve hlookup
      · obtain rfl := Option.some.inj hstep
        exact h.refuse hlookup
    | _ => exact nomatch hstep
  | reserved page slot =>
    cases step with
    | publish =>
      obtain rfl := Option.some.inj hstep
      exact h.publish hlookup
    | _ => exact nomatch hstep
  | queued page slot =>
    cases step with
    | unprotect =>
      obtain rfl := Option.some.inj hstep
      exact h.unprotect hlookup (Or.inl rfl)
    | _ => exact nomatch hstep
  | refused page =>
    cases step with
    | mark =>
      obtain rfl := Option.some.inj hstep
      exact h.mark hlookup
    | _ => exact nomatch hstep
  | marked page =>
    cases step with
    | raise =>
      obtain rfl := Option.some.inj hstep
      exact h.raise hlookup
    | _ => exact nomatch hstep
  | raised page =>
    cases step with
    | unprotect =>
      obtain rfl := Option.some.inj hstep
      have hdone : FaultHandler.raised page = .queued page 0 ∨
          FaultHandler.raised page = .raised page := Or.inr rfl
      exact h.unprotect hlookup hdone
    | _ => exact nomatch hstep

theorem step (h : DirtyInv config st) {step : DirtyStep} (hcond : DirtyCond st step)
    (hstep : st.step config step = some st') : DirtyInv config st' := by
  cases step with
  | fault thread page =>
    obtain ⟨⟨hvalid, -, hnone⟩, rfl⟩ := Option.ite_some_none_eq_some.mp hstep
    exact h.fault hvalid hnone
  | hostWrite page =>
    obtain ⟨hwritable, rfl⟩ := Option.ite_some_none_eq_some.mp hstep
    exact h.hostWrite hwritable
  | reserve | publish | mark | raise | unprotect =>
    obtain ⟨handler, hlookup, hstep⟩ := Option.bind_eq_some_iff.mp hstep
    exact h.handlerStep hlookup hstep
  | _ => exact h.flushStep hcond hstep

end DirtyInv

/-! ## No dirty page is lost -/

/-- No handler and no flush is on its way. -/
def DirtyState.Quiescent (st : DirtyState) : Prop := st.handlers.keys = [] ∧ st.flush = .idle

instance (st : DirtyState) : Decidable st.Quiescent := inferInstanceAs (Decidable (_ ∧ _))

/-- The next flush takes an entry of the page, or sees the mark of its allocation. -/
def DirtyState.Accounted (st : DirtyState) (page : HostPage) : Prop :=
  (∃ slot < st.next, st.start ≤ slot ∧ st.ready slot = true ∧ st.ranges slot = page) ∨
    st.fullDirty page.allocation = true ∧ st.fullDirtyPending = true

instance (st : DirtyState) (page : HostPage) : Decidable (st.Accounted page) :=
  inferInstanceAs (Decidable (_ ∨ _))

/-- **No dirty page is lost.** In every run in which flushes take entries and marks only of handlers
that have enabled writes, at every quiescent point, a page that may be written without a fault, or
that was written since its bytes were last sent, is in the queue, or its allocation is marked. -/
theorem dirty_pages_accounted (config : DirtyConfig) (steps : List DirtyStep) (st : DirtyState)
    (hrun : ((dirtyMachine config).restrict DirtyCond).run {} steps = some st)
    (hquiet : st.Quiescent) (page : HostPage) :
    st.writable page = true ∨ st.sent page ≠ st.version page → st.Accounted page := by
  intro hneeds
  have hinv : DirtyInv config st := by
    refine Machine.run_invariant _ ?_ DirtyInv.init hrun
    intro st step st' hinv hstep
    obtain ⟨hcond, hstep⟩ := Machine.step_restrict.mp hstep
    exact hinv.step hcond hstep
  obtain ⟨hkeys, hidle⟩ := hquiet
  rcases (hinv.covered page hneeds).2 with ⟨slot, hready, hpage⟩ | hfull | hheld
  · obtain ⟨hlow, hhigh, -⟩ := hinv.ready slot hready
    exact Or.inl ⟨slot, hhigh, hlow, hready, hpage⟩
  · refine Or.inr ⟨hfull, ?_⟩
    rcases (hinv.marks _ hfull).2 with hpending | ⟨thread, page', hmarked, -⟩ | ⟨_, _, hsweep, -⟩
    · exact hpending
    · have hmem := mem_keys_of_lookup hmarked
      rw [hkeys] at hmem
      exact nomatch hmem
    · exact nomatch hidle.symm.trans hsweep
  · rw [hidle] at hheld
    exact hheld.elim

/-- Two pages fault, and the second finds a queue of one entry full while a flush has taken the
first. -/
def overflowRun : List DirtyStep :=
  [.fault 1 ⟨0, 0⟩, .reserve 1, .publish 1, .unprotect 1, .hostWrite ⟨0, 0⟩,
    .flushStart, .fault 2 ⟨0, 1⟩, .reserve 2, .scan, .scanStop, .readFullDirty, .mark 2, .take,
    .raise 2, .exchangeFullDirty, .sweepDone [⟨0, 0⟩], .protect, .unprotect 2, .hostWrite ⟨0, 1⟩,
    .protectDone, .readPage, .flushFail, .restore, .restoreDone]

/-- A flush goes by between the entry of a page and its protection. -/
def lossRun : List DirtyStep :=
  [.fault 1 ⟨0, 0⟩, .reserve 1, .publish 1, .flushStart, .scan, .scanStop, .readFullDirty, .take,
    .exchangeFullDirty, .sweepDone [⟨0, 0⟩], .protect, .protectDone, .readPage, .sendBatch,
    .flushDone, .unprotect 1, .hostWrite ⟨0, 0⟩]

/-- A queue of one entry overflows while a flush waits to send what it has taken, and the flush
fails: both pages are accounted for. -/
theorem dirty_pages_accounted_overflow :
    ∃ st, ((dirtyMachine ⟨[0], fun _ ↦ 3, 1⟩).restrict DirtyCond).run {} overflowRun = some st ∧
      st.Accounted ⟨0, 0⟩ ∧ st.Accounted ⟨0, 1⟩ := by
  have hpossible : (((dirtyMachine ⟨[0], fun _ ↦ 3, 1⟩).restrict DirtyCond).run {} overflowRun).any
      fun st ↦ st.Quiescent ∧ st.sent ⟨0, 0⟩ ≠ st.version ⟨0, 0⟩ ∧ st.writable ⟨0, 1⟩ = true := by
    decide
  obtain ⟨st, hrun, hst⟩ := (Option.any_eq_true _ _).mp hpossible
  obtain ⟨hquiet, hunsent, hwritable⟩ := of_decide_eq_true hst
  exact ⟨st, hrun, dirty_pages_accounted _ _ st hrun hquiet ⟨0, 0⟩ (Or.inr hunsent),
    dirty_pages_accounted _ _ st hrun hquiet ⟨0, 1⟩ (Or.inl hwritable)⟩

/-- A flush between the publication of an entry and the protection of its page takes the entry: what
the host then writes is not sent by any flush that follows. -/
theorem flush_before_unprotect_loses_page :
    ((dirtyMachine ⟨[0], fun _ ↦ 3, 64⟩).run {} lossRun).any (fun st ↦ decide
      (st.Quiescent ∧ st.sent ⟨0, 0⟩ ≠ st.version ⟨0, 0⟩ ∧ ¬st.Accounted ⟨0, 0⟩)) = true := by
  decide

end Lupine
