import Lupine.Foundation.Machine
import Lupine.Foundation.Spans

/-!
# Clean pages and the server's mirror

Host memory that kernels may read has a mirror on the server. Writes are noticed by page faults: a
page that is not in the dirty queue of its route, and not covered by the mark of its allocation, is
kept write-protected, and a flush sends what the queue and the marks say and protects it again.

## Other ways to become clean

A copy from the device into such memory opens the pages of its destination, and protects them when
it is done: it writes without a fault, so the mirror does not learn of the bytes. Tracking begins
with protected pages; only `lupine_register_host` marks the allocation as well. What a page holds at
that moment is not sent either.

## What is not modelled

Nothing is stale, as no kernel writes to the memory; then pins and deferred protections do nothing.
Steps are not interleaved with each other. Memory is not released. Registrations that fail leave
nothing behind. The server's address of a byte is the client's.

## Frames

A byte that is written changes one page, a fault one protection and one queue, a copy the pages of
its destination. What each of these leaves as it was is stated once, as a frame, and the invariant
goes over it: it is about tracked pages that are neither queued nor marked, and nothing but a flush
makes a page clean.
-/

namespace Lupine

open Foundation

/-! ## State

Marks are kept by the base of an allocation, protections by base and page, queues by route. The
client's and the server's memory are functions of the address, since the server's address of a byte
is the client's here. -/

/-- `lupine_host_allocation`; `mapped` is `server_host_ptr != 0`. -/
structure MirroredAllocation where
  base : ℕ
  size : ℕ
  pageCount : ℕ
  route : ℕ
  mapped : Bool
  deriving DecidableEq, Repr

/-- `page_size` and `LUPINE_MAX_MANAGED_HOST_DIRTY_RANGES`. -/
structure MirrorConfig where
  pageSize : ℕ := 4096
  capacity : ℕ := 64 * 1024

namespace MirroredAllocation

def span (a : MirroredAllocation) : Span := ⟨a.base, a.size⟩

/-- The bytes that are protected, `storage_size` of them. -/
def storage (config : MirrorConfig) (a : MirroredAllocation) : Span :=
  ⟨a.base, a.pageCount * config.pageSize⟩

def pageIndex (config : MirrorConfig) (a : MirroredAllocation) (addr : ℕ) : ℕ :=
  (addr - a.base) / config.pageSize

end MirroredAllocation

/-- The allocations with their tracking, marks (by base), queues and pending marks (by route),
protections (by base and page), and both copies of the memory. -/
structure MirrorState where
  allocations : List MirroredAllocation := []
  trackingEnabled : ℕ → Bool := fun _ ↦ false
  fullDirty : ℕ → Bool := fun _ ↦ false
  fullDirtyPending : ℕ → Bool := fun _ ↦ false
  ranges : ℕ → List (ℕ × ℕ) := fun _ ↦ []
  writable : ℕ → ℕ → Bool := fun _ _ ↦ true
  host : ℕ → UInt8 := fun _ ↦ 0
  mirror : ℕ → UInt8 := fun _ ↦ 0

/-- How a flush ended. A flush that failed has protected some of its pages and delivered some of its
bytes. -/
inductive FlushOutcome where
  | sent
  | failed (protectedPages : List (ℕ × ℕ)) (delivered : List ℕ)
  deriving DecidableEq, Repr

inductive MirrorStep where
  /-- `cuMemHostAlloc`, where `mapping` is what the flags request, or `cuMemAllocManaged`, where it
  is always set; `contents` is what the server's memory holds. -/
  | allocate (allocation : MirroredAllocation) (mapping : Bool) (contents : ℕ → UInt8)
  /-- `lupine_register_host`. -/
  | registerHost (allocation : MirroredAllocation) (contents : ℕ → UInt8)
  | prepareGraphHostSource (host size : ℕ)
  | hostWrite (addr : ℕ) (byte : UInt8)
  /-- `cuMemcpyDtoH_v2`; `payload` is what arrived before the copy ended or failed. -/
  | copyDtoH (dstHost byteCount : ℕ) (payload : List UInt8)
  | flush (route : ℕ) (outcome : FlushOutcome)

namespace MirrorState

variable (config : MirrorConfig) (st : MirrorState)

/-! ## Allocations -/

/-- `lupine_find_host_allocation_locked`. -/
def findHostAllocation (p : ℕ) : Option MirroredAllocation :=
  st.allocations.find? fun a ↦ a.base = p ∨ a.span.Covers p

def faultEntry (addr : ℕ) : Option MirroredAllocation :=
  st.allocations.find? fun a ↦ (a.storage config).Covers addr ∧ st.trackingEnabled a.base

/-- `lupine_enable_dirty_tracking_locked`. -/
def enableDirtyTracking (a : MirroredAllocation) : MirrorState :=
  if a.mapped = false ∨ st.trackingEnabled a.base then st
  else { st with
    trackingEnabled := Function.update st.trackingEnabled a.base true
    writable := Function.update st.writable a.base fun _ ↦ false }

def Fresh (a : MirroredAllocation) : Prop :=
  (0 < a.pageCount ∧ a.size ≤ a.pageCount * config.pageSize) ∧
    ∀ b ∈ st.allocations, (a.storage config).Apart (b.storage config) ∧ a.base ≠ b.base

instance (a : MirroredAllocation) : Decidable (st.Fresh config a) :=
  inferInstanceAs (Decidable (_ ∧ _))

/-- The allocation is entered, with what the server's memory holds. -/
def enter (a : MirroredAllocation) (contents : ℕ → UInt8) : MirrorState :=
  { st with
    allocations := st.allocations ++ [a]
    mirror := fun addr ↦ if a.span.Covers addr then contents addr else st.mirror addr }

/-! ## Writes

A write to a protected page faults first, and the handler either queues the page or marks the
allocation before it opens the page. -/

/-- The page is in the queue, or its allocation is marked. -/
def Dirty (a : MirroredAllocation) (page : ℕ) : Prop :=
  (a.base, page) ∈ st.ranges a.route ∨ st.fullDirty a.base = true

instance (a : MirroredAllocation) (page : ℕ) : Decidable (st.Dirty a page) :=
  inferInstanceAs (Decidable (_ ∨ _))

/-- The write path of `lupine_sigsegv_handler`. -/
def fault (a : MirroredAllocation) (page : ℕ) : MirrorState :=
  let writable := Function.update st.writable a.base
    (Function.update (st.writable a.base) page true)
  if (st.ranges a.route).length < config.capacity then
    { st with
      writable
      ranges := Function.update st.ranges a.route (st.ranges a.route ++ [(a.base, page)]) }
  else
    { st with
      writable
      fullDirty := Function.update st.fullDirty a.base true
      fullDirtyPending := Function.update st.fullDirtyPending a.route true }

/-- A write of a byte, with the fault it may cause. -/
def hostWrite (addr : ℕ) (byte : UInt8) : MirrorState :=
  let faulted :=
    match st.faultEntry config addr with
    | some a =>
      if st.writable a.base (a.pageIndex config addr) then st
      else st.fault config a (a.pageIndex config addr)
    | none => st
  { faulted with host := Function.update faulted.host addr byte }

def writeBytes (st : MirrorState) (addr : ℕ) : List UInt8 → MirrorState
  | [] => st
  | byte :: bytes => writeBytes (st.hostWrite config addr byte) (addr + 1) bytes

/-! ## Copies from the device

A copy opens the tracked pages of its destination, writes without a fault, and protects them again
whatever they were before. -/

/-- The destination's allocation, with the first and the last page that are protected. -/
def hostPages (host size : ℕ) : Option (MirroredAllocation × ℕ × ℕ) :=
  if host = 0 ∨ size = 0 then none
  else (st.findHostAllocation host).bind fun a ↦
    let stop := min (host + size) (a.base + a.size)
    if st.trackingEnabled a.base = true ∧ host < stop then
      some (a, a.pageIndex config host, a.pageIndex config (stop - 1))
    else none

/-- `lupine_protect_host_range` on the pages of a destination. -/
def protectHostPages (host size : ℕ) (open_ : Bool) : MirrorState :=
  match st.hostPages config host size with
  | some (a, first, last) =>
    { st with
      writable := Function.update st.writable a.base fun page ↦
        if first ≤ page ∧ page ≤ last then open_ else st.writable a.base page }
  | none => st

/-- `lupine_prepare_host_range_write`. -/
def prepareHostRangeWrite (host size : ℕ) : MirrorState := st.protectHostPages config host size true

/-- `lupine_mark_host_range_clean`. -/
def markHostRangeClean (host size : ℕ) : MirrorState := st.protectHostPages config host size false

/-! ## Flushes

A flush of a route takes its queue and the marks of its allocations, sends what is in them and
protects it. When it fails it marks the allocations of all that it took. -/

/-- The flush takes the mark of the allocation. -/
def Swept (route : ℕ) (a : MirroredAllocation) : Prop :=
  st.fullDirtyPending route = true ∧ a.route = route ∧ st.trackingEnabled a.base = true ∧
    st.fullDirty a.base = true

/-- The flush takes the page. -/
def Taken (route : ℕ) (a : MirroredAllocation) (page : ℕ) : Prop :=
  (a.base, page) ∈ st.ranges route ∨ st.Swept route a ∧ page < a.pageCount

instance (route : ℕ) (a : MirroredAllocation) : Decidable (st.Swept route a) :=
  inferInstanceAs (Decidable (_ ∧ _))

instance (route : ℕ) (a : MirroredAllocation) (page : ℕ) : Decidable (st.Taken route a page) :=
  inferInstanceAs (Decidable (_ ∨ _))

/-- The byte is in the ranges of the flush. -/
def InFlush (route addr : ℕ) : Prop :=
  ∃ a ∈ st.allocations, a.span.Covers addr ∧ st.Taken route a (a.pageIndex config addr)

instance (route addr : ℕ) : Decidable (st.InFlush config route addr) :=
  inferInstanceAs (Decidable (∃ _ ∈ _, _))

/-- `lupine_flush_dirty_host_pages_to_route`. -/
def flush (route : ℕ) : FlushOutcome → MirrorState
  | .sent =>
    { st with
      writable := fun base page ↦
        if ∃ a ∈ st.allocations, a.base = base ∧ st.Taken route a page then false
        else st.writable base page
      mirror := fun addr ↦ if st.InFlush config route addr then st.host addr else st.mirror addr
      ranges := Function.update st.ranges route []
      fullDirty := fun base ↦
        if ∃ a ∈ st.allocations, a.base = base ∧ st.Swept route a then false else st.fullDirty base
      fullDirtyPending := Function.update st.fullDirtyPending route false }
  | .failed protectedPages delivered =>
    { st with
      writable := fun base page ↦
        if (∃ a ∈ st.allocations, a.base = base ∧ st.Taken route a page) ∧
            (base, page) ∈ protectedPages then false
        else st.writable base page
      mirror := fun addr ↦
        if st.InFlush config route addr ∧ addr ∈ delivered then st.host addr else st.mirror addr
      ranges := Function.update st.ranges route []
      -- every range marks its allocation again
      fullDirty := fun base ↦
        if ∃ a ∈ st.allocations, a.base = base ∧ ∃ page < a.pageCount, st.Taken route a page
        then true
        else st.fullDirty base
      fullDirtyPending := Function.update st.fullDirtyPending route
        (decide (∃ a ∈ st.allocations, ∃ page < a.pageCount, st.Taken route a page)) }

/-! ## Steps -/

def step : MirrorStep → Option MirrorState
  | .allocate a mapping contents =>
    if st.Fresh config a then
      let entered := { st.enter a contents with
        host := fun addr ↦ if (a.storage config).Covers addr then 0 else st.host addr }
      some (if mapping then entered.enableDirtyTracking a else entered)
    else none
  | .registerHost a contents =>
    if st.Fresh config a then
      let entered := (st.enter a contents).enableDirtyTracking a
      some (if entered.trackingEnabled a.base then
        { entered with
          fullDirty := Function.update entered.fullDirty a.base true
          fullDirtyPending := Function.update entered.fullDirtyPending a.route true }
      else entered)
    else none
  | .prepareGraphHostSource host size =>
    some (match st.findHostAllocation host with
      | some a =>
        if size ≠ 0 ∧ host - a.base ≤ a.size ∧ size ≤ a.size - (host - a.base) then
          st.enableDirtyTracking a
        else st
      | none => st)
  | .hostWrite addr byte => some (st.hostWrite config addr byte)
  | .copyDtoH dstHost byteCount payload =>
    if payload.length ≤ byteCount then
      some (((st.prepareHostRangeWrite config dstHost byteCount).writeBytes config dstHost
        payload).markHostRangeClean config dstHost byteCount)
    else none
  | .flush route outcome => some (st.flush config route outcome)

end MirrorState

def mirrorMachine (config : MirrorConfig) : Machine MirrorState MirrorStep :=
  ⟨MirrorState.step config⟩

/-- Copies from the device bring what the mirror has, except to pages that are in the queue or
marked; and tracking begins, without a mark, only on memory that is as its mirror. -/
def MirrorCond (config : MirrorConfig) (st : MirrorState) : MirrorStep → Prop
  | .allocate a mapping contents =>
    mapping = true → a.mapped = true → ∀ i < a.size, contents (a.base + i) = 0
  | .prepareGraphHostSource host _ =>
    ∀ a ∈ st.findHostAllocation host, a.mapped = true → st.trackingEnabled a.base = false →
      ∀ i < a.size, st.host (a.base + i) = st.mirror (a.base + i)
  | .copyDtoH dstHost byteCount payload =>
    ∀ target ∈ st.hostPages config dstHost byteCount, ∀ i < payload.length,
      dstHost + i < target.1.base + target.1.size →
        st.Dirty target.1 (target.1.pageIndex config (dstHost + i)) ∨
          payload[i]? = some (st.mirror (dstHost + i))
  | _ => True

instance (config : MirrorConfig) (st : MirrorState) (step : MirrorStep) :
    Decidable (MirrorCond config st step) := by
  cases step <;> unfold MirrorCond <;> infer_instance

/-! ## The invariant

Allocations do not overlap in pages, so an address has one allocation and a base has one. What holds
of all bytes of an allocation then holds of each address that it has. -/

/-- Queues and marks are of tracked allocations, and every tracked page that is neither queued nor
marked is as its mirror, and protected unless a copy has opened it. -/
structure MirrorInv (config : MirrorConfig) (opened : ℕ → ℕ → Prop) (st : MirrorState) : Prop where
  apart : st.allocations.Pairwise fun a b ↦
    (a.storage config).Apart (b.storage config) ∧ a.base ≠ b.base
  sizes : ∀ a ∈ st.allocations, 0 < a.pageCount ∧ a.size ≤ a.pageCount * config.pageSize
  tracked : ∀ base, st.trackingEnabled base = true → ∃ a ∈ st.allocations, a.base = base
  entries : ∀ route base page, (base, page) ∈ st.ranges route → st.trackingEnabled base = true ∧
    ∃ a ∈ st.allocations, a.base = base ∧ a.route = route
  marks : ∀ base, st.fullDirty base = true → st.trackingEnabled base = true ∧
    ∃ a ∈ st.allocations, a.base = base ∧ st.fullDirtyPending a.route = true
  clean : ∀ a ∈ st.allocations, st.trackingEnabled a.base = true → ∀ page < a.pageCount,
    st.Dirty a page ∨ (st.writable a.base page = false ∨ opened a.base page) ∧
      ∀ addr, a.span.Covers addr → a.pageIndex config addr = page → st.host addr = st.mirror addr

def noneOpened : ℕ → ℕ → Prop := fun _ _ ↦ False

variable {config : MirrorConfig} {opened : ℕ → ℕ → Prop} {st st' : MirrorState}
  {a b : MirroredAllocation} {addr page route : ℕ} {byte : UInt8}

theorem of_covers {p : ℕ → Prop} (h : ∀ i < a.size, p (a.base + i)) (hcovers : a.span.Covers addr) :
    p addr := by
  have heq : a.base + (addr - a.base) = addr := Nat.add_sub_cancel' hcovers.1
  exact heq ▸ h _ (Nat.sub_lt_left_of_lt_add hcovers.1 hcovers.2)

theorem pageIndex_lt (h : (a.storage config).Covers addr) :
    a.pageIndex config addr < a.pageCount := by
  apply Nat.div_lt_of_lt_mul
  rw [Nat.mul_comm]
  exact Nat.sub_lt_left_of_lt_add h.1 h.2

theorem MirrorState.faultEntry_eq_some (h : st.faultEntry config addr = some a) :
    a ∈ st.allocations ∧ (a.storage config).Covers addr ∧ st.trackingEnabled a.base = true :=
  ⟨List.mem_of_find?_eq_some h, of_decide_eq_true (List.find?_some
    (p := fun a : MirroredAllocation ↦
      decide ((a.storage config).Covers addr ∧ st.trackingEnabled a.base = true)) h)⟩

namespace MirrorInv

theorem init : MirrorInv config noneOpened {} where
  apart := List.Pairwise.nil
  sizes _ h := nomatch h
  tracked _ h := nomatch h
  entries _ _ _ h := nomatch h
  marks _ h := nomatch h
  clean _ h := nomatch h

section

variable (h : MirrorInv config opened st)

include h

theorem eq_of_storage (ha : a ∈ st.allocations) (hb : b ∈ st.allocations)
    (hpa : (a.storage config).Covers addr) (hpb : (b.storage config).Covers addr) : a = b :=
  eq_of_covers (h.apart.imp fun h ↦ h.1) ha hb hpa hpb

theorem eq_of_base (ha : a ∈ st.allocations) (hb : b ∈ st.allocations) (heq : a.base = b.base) :
    a = b := by
  by_contra hne
  have hsymm : Std.Symm fun a b : MirroredAllocation ↦
      (a.storage config).Apart (b.storage config) ∧ a.base ≠ b.base :=
    ⟨fun _ _ h ↦ ⟨h.1.symm, h.2.symm⟩⟩
  exact (h.apart.forall ha hb hne).2 heq

theorem covers_storage (ha : a ∈ st.allocations) (hcovers : a.span.Covers addr) :
    (a.storage config).Covers addr :=
  ⟨hcovers.1, Nat.lt_of_lt_of_le hcovers.2 (Nat.add_le_add_left (h.sizes a ha).2 _)⟩

/-! ## Writes keep it

A fault makes the page dirty, and then the byte may be anything. On a page that a copy has opened
there is no fault, and the byte must be what the mirror has. -/

theorem fault (ha : a ∈ st.allocations) (htracked : st.trackingEnabled a.base = true) :
    MirrorInv config opened (st.fault config a page) := by
  have hwritable : ∀ b ∈ st.allocations, ∀ page', ¬(b = a ∧ page' = page) →
      Function.update st.writable a.base (Function.update (st.writable a.base) page true) b.base
        page' = st.writable b.base page' := by
    intro b hb page' hne
    rcases eq_or_ne b.base a.base with heq | hbase
    · have hpage : page' ≠ page := fun hpage ↦ hne ⟨h.eq_of_base hb ha heq, hpage⟩
      rw [heq, Function.update_self, Function.update_of_ne hpage]
    · rw [Function.update_of_ne hbase]
  rw [MirrorState.fault]
  split
  -- there is room in the queue, and the page goes into it
  · have hranges : ∀ route base page', (base, page') ∈ st.ranges route →
        (base, page') ∈ Function.update st.ranges a.route (st.ranges a.route ++ [(a.base, page)])
          route := by
      intro route base page' hentry
      rcases eq_or_ne route a.route with rfl | hroute
      · rw [Function.update_self]
        exact List.mem_append_left _ hentry
      · rw [Function.update_of_ne hroute]
        exact hentry
    constructor
    · exact h.apart
    · exact h.sizes
    · exact h.tracked
    · intro route base page' hentry
      rcases eq_or_ne route a.route with rfl | hroute
      · simp only [Function.update_self] at hentry
        rcases List.mem_append.mp hentry with hentry | hentry
        · exact h.entries _ base page' hentry
        · obtain ⟨rfl, -⟩ := Prod.mk.inj (List.mem_singleton.mp hentry)
          exact ⟨htracked, a, ha, rfl, rfl⟩
      · simp only [Function.update_of_ne hroute] at hentry
        exact h.entries route base page' hentry
    · exact h.marks
    · intro b hb htracked page' hpage'
      by_cases hfaulted : b = a ∧ page' = page
      · obtain ⟨rfl, rfl⟩ := hfaulted
        refine Or.inl (Or.inl ?_)
        simp only [Function.update_self]
        exact List.mem_append_right _ (List.mem_singleton_self _)
      · rcases h.clean b hb htracked page' hpage' with (hqueued | hfull) | ⟨hclosed, hbytes⟩
        · exact Or.inl (Or.inl (hranges _ _ _ hqueued))
        · exact Or.inl (Or.inr hfull)
        · exact Or.inr ⟨hclosed.imp_left (hwritable b hb page' hfaulted).trans, hbytes⟩
  -- the queue is full: the whole allocation is marked in place of the page
  · have hfull : ∀ base, st.fullDirty base = true →
        Function.update st.fullDirty a.base true base = true := by
      intro base hmark
      rcases eq_or_ne base a.base with rfl | hbase
      · exact Function.update_self _ _ _
      · rw [Function.update_of_ne hbase]
        exact hmark
    constructor
    · exact h.apart
    · exact h.sizes
    · exact h.tracked
    · exact h.entries
    · intro base hmark
      rcases eq_or_of_update hmark with ⟨rfl, -⟩ | ⟨-, hmark⟩
      · exact ⟨htracked, a, ha, rfl, Function.update_self _ _ _⟩
      · obtain ⟨htracked', b, hb, hbase, hpending⟩ := h.marks base hmark
        refine ⟨htracked', b, hb, hbase, ?_⟩
        rcases eq_or_ne b.route a.route with heq | hroute
        · simp only [heq, Function.update_self]
        · simp only [Function.update_of_ne hroute]
          exact hpending
    · intro b hb htracked page' hpage'
      by_cases hfaulted : b = a ∧ page' = page
      · obtain ⟨rfl, rfl⟩ := hfaulted
        exact Or.inl (Or.inr (Function.update_self _ _ _))
      · rcases h.clean b hb htracked page' hpage' with (hqueued | hmark) | ⟨hclosed, hbytes⟩
        · exact Or.inl (Or.inl hqueued)
        · exact Or.inl (Or.inr (hfull _ hmark))
        · exact Or.inr ⟨hclosed.imp_left (hwritable b hb page' hfaulted).trans, hbytes⟩

theorem setHost (hbyte : ∀ a ∈ st.allocations, st.trackingEnabled a.base = true →
      a.span.Covers addr → st.Dirty a (a.pageIndex config addr) ∨ byte = st.mirror addr) :
    MirrorInv config opened { st with host := Function.update st.host addr byte } := by
  constructor
  · exact h.apart
  · exact h.sizes
  · exact h.tracked
  · exact h.entries
  · exact h.marks
  · intro a ha htracked page hpage
    rcases h.clean a ha htracked page hpage with hdirty | ⟨hclosed, hbytes⟩
    · exact Or.inl hdirty
    · by_cases hdirty : st.Dirty a page
      · exact Or.inl hdirty
      · refine Or.inr ⟨hclosed, ?_⟩
        intro addr' hcovers hindex
        rcases eq_or_ne addr' addr with rfl | hne
        · simp only [Function.update_self]
          exact (hbyte a ha htracked hcovers).resolve_left (hindex ▸ hdirty)
        · simp only [Function.update_of_ne hne]
          exact hbytes addr' hcovers hindex

end

theorem dirty_fault {a b : MirroredAllocation} {page' : ℕ} (hdirty : st.Dirty b page') :
    (st.fault config a page).Dirty b page' := by
  rw [MirrorState.fault]
  split
  · rcases hdirty with hqueued | hmark
    · refine Or.inl ?_
      rcases eq_or_ne b.route a.route with heq | hroute
      · simp only [heq, Function.update_self]
        exact List.mem_append_left _ (heq ▸ hqueued)
      · simp only [Function.update_of_ne hroute]
        exact hqueued
    · exact Or.inr hmark
  · rcases hdirty with hqueued | hmark
    · exact Or.inl hqueued
    · refine Or.inr ?_
      rcases eq_or_ne b.base a.base with heq | hbase
      · simp only [heq, Function.update_self]
      · simp only [Function.update_of_ne hbase]
        exact hmark

theorem dirty_fault_self : (st.fault config a page).Dirty a page := by
  rw [MirrorState.fault]
  split
  · refine Or.inl ?_
    simp only [Function.update_self]
    exact List.mem_append_right _ (List.mem_singleton_self _)
  · exact Or.inr (Function.update_self _ _ _)

theorem hostWrite_frame (config : MirrorConfig) (st : MirrorState) (addr : ℕ) (byte : UInt8) :
    (st.hostWrite config addr byte).allocations = st.allocations ∧
      (st.hostWrite config addr byte).trackingEnabled = st.trackingEnabled ∧
      (st.hostWrite config addr byte).mirror = st.mirror ∧
      ∀ b page, st.Dirty b page → (st.hostWrite config addr byte).Dirty b page := by
  have hfault : ∀ a page, (st.fault config a page).allocations = st.allocations ∧
      (st.fault config a page).trackingEnabled = st.trackingEnabled ∧
      (st.fault config a page).mirror = st.mirror := by
    intro a page
    rw [MirrorState.fault]
    split <;> exact ⟨rfl, rfl, rfl⟩
  rw [MirrorState.hostWrite]
  cases hentry : st.faultEntry config addr with
  | none => exact ⟨rfl, rfl, rfl, fun _ _ hdirty ↦ hdirty⟩
  | some a =>
    simp only
    split
    · exact ⟨rfl, rfl, rfl, fun _ _ hdirty ↦ hdirty⟩
    · exact ⟨(hfault _ _).1, (hfault _ _).2.1, (hfault _ _).2.2,
        fun _ _ hdirty ↦ dirty_fault hdirty⟩

theorem hostWrite (h : MirrorInv config opened st)
    (hopened : ∀ a ∈ st.allocations, a.span.Covers addr → opened a.base (a.pageIndex config addr) →
      st.Dirty a (a.pageIndex config addr) ∨ byte = st.mirror addr) :
    MirrorInv config opened (st.hostWrite config addr byte) := by
  rw [MirrorState.hostWrite]
  cases hentry : st.faultEntry config addr with
  | none =>
    apply h.setHost
    intro a ha htracked hcovers
    have hnone := List.find?_eq_none.mp hentry a ha
    exact absurd (decide_eq_true ⟨h.covers_storage ha hcovers, htracked⟩) hnone
  | some a =>
    obtain ⟨ha, hcovers, htracked⟩ := MirrorState.faultEntry_eq_some hentry
    simp only
    split_ifs with hwritable
    · apply h.setHost
      intro b hb _ hcovers'
      obtain rfl := h.eq_of_storage hb ha (h.covers_storage hb hcovers') hcovers
      rcases h.clean b hb htracked _ (pageIndex_lt hcovers) with hdirty | ⟨hclosed | hopen, -⟩
      · exact Or.inl hdirty
      · exact absurd (hwritable.symm.trans hclosed) (by decide)
      · exact hopened b hb hcovers' hopen
    · apply (h.fault ha htracked).setHost
      intro b hb _ hcovers'
      have hb' : b ∈ st.allocations := by
        rw [MirrorState.fault] at hb
        split at hb <;> exact hb
      obtain rfl := h.eq_of_storage hb' ha (h.covers_storage hb' hcovers') hcovers
      exact Or.inl dirty_fault_self

/-! ## Copies keep it -/

theorem writeBytes_frame (config : MirrorConfig) (st : MirrorState) (addr : ℕ)
    (payload : List UInt8) :
    (st.writeBytes config addr payload).allocations = st.allocations ∧
      (st.writeBytes config addr payload).trackingEnabled = st.trackingEnabled := by
  induction payload generalizing st addr with
  | nil => exact ⟨rfl, rfl⟩
  | cons byte payload ih =>
    obtain ⟨hallocations, htracking, -, -⟩ := hostWrite_frame config st addr byte
    exact ⟨(ih _ _).1.trans hallocations, (ih _ _).2.trans htracking⟩

theorem writeBytes {payload : List UInt8} (h : MirrorInv config opened st)
    (hopened : ∀ a ∈ st.allocations, ∀ i < payload.length, a.span.Covers (addr + i) →
      opened a.base (a.pageIndex config (addr + i)) →
        st.Dirty a (a.pageIndex config (addr + i)) ∨ payload[i]? = some (st.mirror (addr + i))) :
    MirrorInv config opened (st.writeBytes config addr payload) := by
  induction payload generalizing st addr with
  | nil => exact h
  | cons byte payload ih =>
    obtain ⟨hallocations, -, hmirror, hdirty⟩ := hostWrite_frame config st addr byte
    apply ih
    · apply h.hostWrite
      intro a ha hcovers hopen
      exact (hopened a ha 0 (Nat.succ_pos _) hcovers hopen).imp_right Option.some.inj
    · intro a ha i hi hcovers hopen
      rw [Nat.add_right_comm, Nat.add_assoc] at hcovers hopen ⊢
      rw [hmirror]
      exact (hopened a (hallocations ▸ ha) (i + 1) (Nat.succ_lt_succ hi) hcovers hopen).imp_left
        (hdirty a _)

theorem hostPages_eq_some {host size first last : ℕ}
    (h : st.hostPages config host size = some (a, first, last)) :
    a ∈ st.allocations ∧ st.trackingEnabled a.base = true := by
  obtain ⟨-, hbind⟩ := Option.ite_none_left_eq_some.mp h
  obtain ⟨b, hfind, hpages⟩ := Option.bind_eq_some_iff.mp hbind
  obtain ⟨⟨htracked, -⟩, heq⟩ := Option.ite_none_right_eq_some.mp hpages
  obtain ⟨rfl, -⟩ := Prod.mk.inj (Option.some.inj heq)
  exact ⟨List.mem_of_find?_eq_some hfind, htracked⟩

/-- The pages of a destination, which a copy opens. -/
def hostPagesOpened (config : MirrorConfig) (st : MirrorState) (host size : ℕ) : ℕ → ℕ → Prop :=
  fun base page ↦ ∃ a first last, st.hostPages config host size = some (a, first, last) ∧
    a.base = base ∧ first ≤ page ∧ page ≤ last

theorem prepareHostRangeWrite (h : MirrorInv config noneOpened st) (host size : ℕ) :
    MirrorInv config (hostPagesOpened config st host size)
      (st.prepareHostRangeWrite config host size) := by
  rw [MirrorState.prepareHostRangeWrite, MirrorState.protectHostPages]
  cases hpages : st.hostPages config host size with
  | none =>
    refine ⟨h.apart, h.sizes, h.tracked, h.entries, h.marks, ?_⟩
    intro a ha htracked page hpage
    refine (h.clean a ha htracked page hpage).imp_right ?_
    rintro ⟨hclosed | hopen, hbytes⟩
    · exact ⟨Or.inl hclosed, hbytes⟩
    · exact hopen.elim
  | some target =>
    obtain ⟨a, first, last⟩ := target
    refine ⟨h.apart, h.sizes, h.tracked, h.entries, h.marks, ?_⟩
    intro b hb htracked page hpage
    refine (h.clean b hb htracked page hpage).imp_right ?_
    rintro ⟨hclosed, hbytes⟩
    refine ⟨?_, hbytes⟩
    by_cases hin : b.base = a.base ∧ first ≤ page ∧ page ≤ last
    · exact Or.inr ⟨a, first, last, hpages, hin.1.symm, hin.2⟩
    · refine Or.inl ((?_ : _ = st.writable b.base page).trans (hclosed.resolve_right id))
      rcases eq_or_ne b.base a.base with heq | hbase
      · simp only [heq, Function.update_self]
        rw [if_neg fun hrange ↦ hin ⟨heq, hrange⟩]
      · simp only [Function.update_of_ne hbase]

theorem markHostRangeClean {host size : ℕ}
    (h : MirrorInv config (hostPagesOpened config st host size) st) :
    MirrorInv config noneOpened (st.markHostRangeClean config host size) := by
  rw [MirrorState.markHostRangeClean, MirrorState.protectHostPages]
  cases hpages : st.hostPages config host size with
  | none =>
    refine ⟨h.apart, h.sizes, h.tracked, h.entries, h.marks, ?_⟩
    intro a ha htracked page hpage
    refine (h.clean a ha htracked page hpage).imp_right ?_
    rintro ⟨hclosed | ⟨_, _, _, hsome, -⟩, hbytes⟩
    · exact ⟨Or.inl hclosed, hbytes⟩
    · exact nomatch hpages.symm.trans hsome
  | some target =>
    obtain ⟨a, first, last⟩ := target
    refine ⟨h.apart, h.sizes, h.tracked, h.entries, h.marks, ?_⟩
    intro b hb htracked page hpage
    refine (h.clean b hb htracked page hpage).imp_right ?_
    rintro ⟨hclosed, hbytes⟩
    refine ⟨Or.inl ?_, hbytes⟩
    rcases eq_or_ne b.base a.base with heq | hbase
    · simp only [heq, Function.update_self]
      split_ifs with hrange
      · rfl
      · rcases hclosed with hclosed | ⟨a', first', last', hsome, -, hin⟩
        · exact heq ▸ hclosed
        · obtain ⟨-, heq'⟩ := Prod.mk.inj (Option.some.inj (hpages.symm.trans hsome))
          obtain ⟨rfl, rfl⟩ := Prod.mk.inj heq'
          exact absurd hin hrange
    · simp only [Function.update_of_ne hbase]
      rcases hclosed with hclosed | ⟨a', first', last', hsome, hbase', -⟩
      · exact hclosed
      · obtain ⟨rfl, -⟩ := Prod.mk.inj (Option.some.inj (hpages.symm.trans hsome))
        exact absurd hbase'.symm hbase

theorem hostPages_congr (config : MirrorConfig) (hallocations : st'.allocations = st.allocations)
    (htracking : st'.trackingEnabled = st.trackingEnabled) (host size : ℕ) :
    st'.hostPages config host size = st.hostPages config host size := by
  rw [MirrorState.hostPages, MirrorState.hostPages, MirrorState.findHostAllocation,
    MirrorState.findHostAllocation, hallocations, htracking]

theorem copyDtoH (h : MirrorInv config noneOpened st) {dstHost byteCount : ℕ} {payload : List UInt8}
    (hcond : MirrorCond config st (.copyDtoH dstHost byteCount payload)) :
    MirrorInv config noneOpened
      (((st.prepareHostRangeWrite config dstHost byteCount).writeBytes config
        dstHost payload).markHostRangeClean config dstHost byteCount) := by
  have hframe : (st.prepareHostRangeWrite config dstHost byteCount).allocations = st.allocations ∧
      (st.prepareHostRangeWrite config dstHost byteCount).trackingEnabled = st.trackingEnabled ∧
      (st.prepareHostRangeWrite config dstHost byteCount).mirror = st.mirror ∧
      ∀ a page, st.Dirty a page →
        (st.prepareHostRangeWrite config dstHost byteCount).Dirty a page := by
    rw [MirrorState.prepareHostRangeWrite, MirrorState.protectHostPages]
    split <;> exact ⟨rfl, rfl, rfl, fun _ _ hdirty ↦ hdirty⟩
  obtain ⟨hallocations, htracking, hmirror, hdirty⟩ := hframe
  obtain ⟨hallocations', htracking'⟩ := writeBytes_frame config
    (st.prepareHostRangeWrite config dstHost byteCount) dstHost payload
  have hpages := hostPages_congr config (hallocations'.trans hallocations)
    (htracking'.trans htracking) dstHost byteCount
  have hopened : hostPagesOpened config ((st.prepareHostRangeWrite config dstHost
      byteCount).writeBytes config dstHost payload) dstHost byteCount =
        hostPagesOpened config st dstHost byteCount := by
    funext base page
    rw [hostPagesOpened, hostPagesOpened, hpages]
  apply markHostRangeClean
  rw [hopened]
  apply (h.prepareHostRangeWrite dstHost byteCount).writeBytes
  rintro b hb i hi hcovers ⟨a, first, last, hpages, hbase, -⟩
  rw [hallocations] at hb
  rw [hmirror]
  obtain rfl := h.eq_of_base (hostPages_eq_some hpages).1 hb hbase
  exact (hcond _ hpages i hi hcovers.2).imp_left (hdirty a _)

/-! ## Registrations keep it

An allocation is entered beside the others; tracking begins with a mark or on memory that is as its
mirror. -/

theorem enter (h : MirrorInv config noneOpened st) (hfresh : st.Fresh config a)
    (host mirror : ℕ → UInt8)
    (hhost : ∀ addr, ¬(a.storage config).Covers addr → host addr = st.host addr)
    (hmirror : ∀ addr, ¬(a.storage config).Covers addr → mirror addr = st.mirror addr) :
    MirrorInv config noneOpened
      { st with allocations := st.allocations ++ [a], host := host, mirror := mirror } := by
  obtain ⟨hsize, hnew⟩ := hfresh
  constructor
  · refine List.pairwise_append.mpr ⟨h.apart, List.pairwise_singleton _ _, ?_⟩
    intro b hb a' ha'
    obtain rfl := List.mem_singleton.mp ha'
    exact ⟨(hnew b hb).1.symm, (hnew b hb).2.symm⟩
  · intro b hb
    rcases List.mem_append.mp hb with hb | hb
    · exact h.sizes b hb
    · exact List.mem_singleton.mp hb ▸ hsize
  · intro base htracked
    obtain ⟨b, hb, hbase⟩ := h.tracked base htracked
    exact ⟨b, List.mem_append_left _ hb, hbase⟩
  · intro route base page hentry
    obtain ⟨htracked, b, hb, heq⟩ := h.entries route base page hentry
    exact ⟨htracked, b, List.mem_append_left _ hb, heq⟩
  · intro base hmark
    obtain ⟨htracked, b, hb, heq⟩ := h.marks base hmark
    exact ⟨htracked, b, List.mem_append_left _ hb, heq⟩
  · intro b hb htracked page hpage
    rcases List.mem_append.mp hb with hb | hb
    · refine (h.clean b hb htracked page hpage).imp_right ?_
      rintro ⟨hclosed, hbytes⟩
      refine ⟨hclosed, ?_⟩
      intro addr hcovers hindex
      have hout := (hnew b hb).1.symm.not_covers (h.covers_storage hb hcovers)
      exact (hhost addr hout).trans ((hbytes addr hcovers hindex).trans (hmirror addr hout).symm)
    · obtain rfl := List.mem_singleton.mp hb
      obtain ⟨a, ha, hbase⟩ := h.tracked b.base htracked
      exact absurd hbase.symm (hnew a ha).2

theorem track (h : MirrorInv config noneOpened st) (ha : a ∈ st.allocations) (mark : Bool)
    (hbytes : mark = true ∨ ∀ addr, a.span.Covers addr → st.host addr = st.mirror addr) :
    MirrorInv config noneOpened { st with
      trackingEnabled := Function.update st.trackingEnabled a.base true
      writable := Function.update st.writable a.base fun _ ↦ false
      fullDirty := if mark then Function.update st.fullDirty a.base true else st.fullDirty
      fullDirtyPending := if mark then Function.update st.fullDirtyPending a.route true
        else st.fullDirtyPending } := by
  have htracked : ∀ base, st.trackingEnabled base = true →
      Function.update st.trackingEnabled a.base true base = true := by
    intro base hbase
    rcases eq_or_ne base a.base with rfl | hne
    · exact Function.update_self _ _ _
    · exact (Function.update_of_ne hne _ _).trans hbase
  have hpending : ∀ route, st.fullDirtyPending route = true →
      (if mark then Function.update st.fullDirtyPending a.route true else st.fullDirtyPending)
        route = true := by
    intro route hroute
    split_ifs
    · rcases eq_or_ne route a.route with rfl | hne
      · exact Function.update_self _ _ _
      · exact (Function.update_of_ne hne _ _).trans hroute
    · exact hroute
  constructor
  · exact h.apart
  · exact h.sizes
  · intro base hbase
    rcases eq_or_of_update hbase with ⟨rfl, -⟩ | ⟨-, hbase⟩
    · exact ⟨a, ha, rfl⟩
    · exact h.tracked base hbase
  · exact fun route base page hentry ↦
      (h.entries route base page hentry).imp_left (htracked base)
  · intro base hbase
    have hold : st.fullDirty base = true →
        Function.update st.trackingEnabled a.base true base = true ∧
        ∃ b ∈ st.allocations, b.base = base ∧
          (if mark then Function.update st.fullDirtyPending a.route true
            else st.fullDirtyPending) b.route = true := by
      intro hbase
      obtain ⟨hbase', b, hb, heq, hroute⟩ := h.marks base hbase
      exact ⟨htracked base hbase', b, hb, heq, hpending _ hroute⟩
    cases mark with
    | false => exact hold hbase
    | true =>
      rcases eq_or_of_update hbase with ⟨rfl, -⟩ | ⟨-, hbase⟩
      · exact ⟨Function.update_self _ _ _, a, ha, rfl, Function.update_self _ _ _⟩
      · exact hold hbase
  -- the last field is about bytes: pages of `a` are closed now, and either marked or in step
  · intro b hb hbase page hpage
    rcases eq_or_of_update hbase with ⟨heq, -⟩ | ⟨hne, hbase⟩
    · obtain rfl := h.eq_of_base hb ha heq
      rcases hbytes with rfl | hbytes
      · exact Or.inl (Or.inr (Function.update_self _ _ _))
      · refine Or.inr ⟨Or.inl ?_, fun addr hcovers _ ↦ hbytes addr hcovers⟩
        simp only [Function.update_self]
    · rcases h.clean b hb hbase page hpage with (hqueued | hmark) | ⟨hclosed, hbytes⟩
      · exact Or.inl (Or.inl hqueued)
      · refine Or.inl (Or.inr ?_)
        cases mark with
        | false => exact hmark
        | true => exact (Function.update_of_ne hne _ _).trans hmark
      · refine Or.inr ⟨hclosed.imp_left (?_ : _ = st.writable b.base page).trans, hbytes⟩
        simp only [Function.update_of_ne hne]

theorem enableDirtyTracking (h : MirrorInv config noneOpened st) (ha : a ∈ st.allocations)
    (hbytes : a.mapped = true → st.trackingEnabled a.base = false →
      ∀ addr, a.span.Covers addr → st.host addr = st.mirror addr) :
    MirrorInv config noneOpened (st.enableDirtyTracking a) := by
  rw [MirrorState.enableDirtyTracking]
  split_ifs with hskip
  · exact h
  · obtain ⟨hmapped, huntracked⟩ := not_or.mp hskip
    exact h.track ha false (Or.inr (hbytes (eq_true_of_ne_false hmapped)
      (eq_false_of_ne_true huntracked)))

/-! ## Flushes keep it

A page that a flush does not take and that is dirty is of another route, whose queue stays. A
taken page is a page of a tracked allocation of the route, and its bytes are exactly those that the
flush sends of it. -/

section

variable (h : MirrorInv config noneOpened st)

include h

theorem pending (ha : a ∈ st.allocations) (hmark : st.fullDirty a.base = true) :
    st.fullDirtyPending a.route = true := by
  obtain ⟨-, b, hb, hbase, hpending⟩ := h.marks a.base hmark
  rwa [h.eq_of_base hb ha hbase] at hpending

theorem taken_of_dirty (ha : a ∈ st.allocations) (htracked : st.trackingEnabled a.base = true)
    (hpage : page < a.pageCount) (hdirty : st.Dirty a page) : st.Taken a.route a page := by
  rcases hdirty with hqueued | hmark
  · exact Or.inl hqueued
  · exact Or.inr ⟨⟨h.pending ha hmark, rfl, htracked, hmark⟩, hpage⟩

theorem inFlush_iff (ha : a ∈ st.allocations) (hcovers : a.span.Covers addr) :
    st.InFlush config route addr ↔ st.Taken route a (a.pageIndex config addr) := by
  constructor
  · rintro ⟨b, hb, hcovers', htaken⟩
    obtain rfl := h.eq_of_storage hb ha (h.covers_storage hb hcovers') (h.covers_storage ha hcovers)
    exact htaken
  · exact fun htaken ↦ ⟨a, ha, hcovers, htaken⟩

theorem exists_base_iff (ha : a ∈ st.allocations) (p : MirroredAllocation → Prop) :
    (∃ b ∈ st.allocations, b.base = a.base ∧ p b) ↔ p a := by
  constructor
  · rintro ⟨b, hb, hbase, hp⟩
    exact h.eq_of_base hb ha hbase ▸ hp
  · exact fun hp ↦ ⟨a, ha, rfl, hp⟩

theorem entries_flush {route' base : ℕ}
    (hentry : (base, page) ∈ Function.update st.ranges route [] route') :
    st.trackingEnabled base = true ∧ ∃ a ∈ st.allocations, a.base = base ∧ a.route = route' := by
  rcases eq_or_ne route' route with rfl | hroute
  · rw [Function.update_self] at hentry
    exact nomatch hentry
  · rw [Function.update_of_ne hroute] at hentry
    exact h.entries route' base page hentry

theorem route_ne (ha : a ∈ st.allocations) (htracked : st.trackingEnabled a.base = true)
    (hpage : page < a.pageCount) (hdirty : st.Dirty a page) (hleft : ¬st.Taken route a page) :
    a.route ≠ route := by
  rintro rfl
  exact hleft (h.taken_of_dirty ha htracked hpage hdirty)

theorem flushSent (route : ℕ) : MirrorInv config noneOpened (st.flush config route .sent) := by
  constructor
  · exact h.apart
  · exact h.sizes
  · exact h.tracked
  · exact fun route' base page hentry ↦ h.entries_flush hentry
  · intro base hmark
    obtain ⟨hleft, hmark'⟩ : ¬(∃ a ∈ st.allocations, a.base = base ∧ st.Swept route a) ∧
        st.fullDirty base = true := by
      simpa only [MirrorState.flush, Bool.if_false_left, Bool.and_eq_true, Bool.not_eq_true',
        decide_eq_false_iff_not] using hmark
    obtain ⟨htracked, b, hb, rfl, hpending⟩ := h.marks base hmark'
    refine ⟨htracked, b, hb, rfl, ?_⟩
    have hroute : b.route ≠ route := by
      rintro rfl
      exact hleft ⟨b, hb, rfl, hpending, rfl, htracked, hmark'⟩
    exact (Function.update_of_ne hroute _ _).trans hpending
  · intro a ha htracked page hpage
    by_cases htaken : st.Taken route a page
    · refine Or.inr ⟨Or.inl ?_, ?_⟩
      · exact if_pos ((h.exists_base_iff ha fun b ↦ st.Taken route b page).mpr htaken)
      · intro addr hcovers hindex
        exact (if_pos ((h.inFlush_iff ha hcovers).mpr (hindex ▸ htaken))).symm
    · rcases h.clean a ha htracked page hpage with hdirty | ⟨hclosed, hbytes⟩
      · have hroute := h.route_ne ha htracked hpage hdirty htaken
        refine Or.inl (hdirty.imp ?_ ?_)
        · intro hqueued
          simp only [MirrorState.flush, Function.update_of_ne hroute]
          exact hqueued
        · intro hmark
          have hkept := mt (h.exists_base_iff ha (st.Swept route)).mp fun hswept ↦ hroute hswept.2.1
          exact (if_neg hkept).trans hmark
      · refine Or.inr ⟨Or.inl ?_, ?_⟩
        · exact (ite_eq_left_iff.mpr fun _ ↦ (hclosed.resolve_right id))
        · intro addr hcovers hindex
          have hout := mt (h.inFlush_iff ha hcovers).mp (hindex ▸ htaken)
          exact (hbytes addr hcovers hindex).trans (if_neg hout).symm

theorem of_taken (ha : a ∈ st.allocations) (htaken : st.Taken route a page) :
    st.trackingEnabled a.base = true ∧ a.route = route := by
  rcases htaken with hqueued | ⟨hswept, -⟩
  · obtain ⟨htracked, b, hb, hbase, rfl⟩ := h.entries route a.base page hqueued
    exact ⟨htracked, congrArg _ (h.eq_of_base ha hb hbase.symm)⟩
  · exact ⟨hswept.2.2.1, hswept.2.1⟩

theorem flushFailed (protectedPages : List (ℕ × ℕ)) (delivered : List ℕ) :
    MirrorInv config noneOpened (st.flush config route (.failed protectedPages delivered)) := by
  constructor
  · exact h.apart
  · exact h.sizes
  · exact h.tracked
  · exact fun route' base page hentry ↦ h.entries_flush hentry
  · intro base hmark
    -- the route takes what was dirty: an allocation of it is marked again as a whole
    by_cases hmarked : ∃ a ∈ st.allocations, a.base = base ∧
        ∃ page < a.pageCount, st.Taken route a page
    · obtain ⟨a, ha, rfl, page, hpage, htaken⟩ := hmarked
      obtain ⟨htracked, rfl⟩ := h.of_taken ha htaken
      refine ⟨htracked, a, ha, rfl, ?_⟩
      exact (Function.update_self _ _ _).trans (decide_eq_true ⟨a, ha, page, hpage, htaken⟩)
    · have hmark' : st.fullDirty base = true := (if_neg hmarked).symm.trans hmark
      obtain ⟨htracked, b, hb, rfl, hpending⟩ := h.marks base hmark'
      refine ⟨htracked, b, hb, rfl, ?_⟩
      -- the mark was there before, and then its route is another one
      have hroute : b.route ≠ route := by
        rintro rfl
        exact hmarked ⟨b, hb, rfl, 0, (h.sizes b hb).1,
          h.taken_of_dirty hb htracked (h.sizes b hb).1 (Or.inr hmark')⟩
      exact (Function.update_of_ne hroute _ _).trans hpending
  · intro a ha htracked page hpage
    by_cases hmarked : ∃ page < a.pageCount, st.Taken route a page
    · refine Or.inl (Or.inr ?_)
      exact if_pos ((h.exists_base_iff ha fun b ↦ ∃ page < b.pageCount, st.Taken route b page).mpr
        hmarked)
    · have hleft : ¬st.Taken route a page := fun htaken ↦ hmarked ⟨page, hpage, htaken⟩
      rcases h.clean a ha htracked page hpage with hdirty | ⟨hclosed, hbytes⟩
      · have hroute := h.route_ne ha htracked hpage hdirty hleft
        refine Or.inl (hdirty.imp ?_ ?_)
        · intro hqueued
          simp only [MirrorState.flush, Function.update_of_ne hroute]
          exact hqueued
        · intro hmark
          exact ite_eq_left_iff.mpr fun _ ↦ hmark
      · refine Or.inr ⟨Or.inl ?_, ?_⟩
        · exact ite_eq_left_iff.mpr fun _ ↦ hclosed.resolve_right id
        -- the page is clean, so no byte of it was in the flush
        · intro addr hcovers hindex
          have hout := mt (h.inFlush_iff ha hcovers).mp (hindex ▸ hleft)
          exact (hbytes addr hcovers hindex).trans (if_neg fun hin ↦ hout hin.1).symm

end

theorem step (h : MirrorInv config noneOpened st) {step : MirrorStep}
    (hcond : MirrorCond config st step) (hstep : st.step config step = some st') :
    MirrorInv config noneOpened st' := by
  cases step with
  | allocate a mapping contents =>
    obtain ⟨hfresh, rfl⟩ := Option.ite_some_none_eq_some.mp hstep
    have hstorage : ∀ addr, a.span.Covers addr → (a.storage config).Covers addr := fun _ hcovers ↦
      ⟨hcovers.1, Nat.lt_of_lt_of_le hcovers.2 (Nat.add_le_add_left hfresh.1.2 _)⟩
    have hentered := h.enter hfresh
      (fun addr ↦ if (a.storage config).Covers addr then 0 else st.host addr)
      (fun addr ↦ if a.span.Covers addr then contents addr else st.mirror addr)
      (fun addr hout ↦ if_neg hout) fun addr hout ↦ if_neg (mt (hstorage addr) hout)
    split_ifs with hmapping
    -- new storage is filled with zeros, and a tracked mapping has to begin so on the server too
    · apply hentered.enableDirtyTracking (List.mem_append_right _ (List.mem_singleton_self a))
      intro hmapped _ addr hcovers
      have hzero : contents addr = 0 :=
        of_covers (p := fun addr ↦ contents addr = 0) (hcond hmapping hmapped) hcovers
      simp only [if_pos (hstorage addr hcovers), if_pos hcovers, hzero]
    · exact hentered
  | registerHost a contents =>
    obtain ⟨hfresh, rfl⟩ := Option.ite_some_none_eq_some.mp hstep
    have hstorage : ∀ addr, a.span.Covers addr → (a.storage config).Covers addr := fun _ hcovers ↦
      ⟨hcovers.1, Nat.lt_of_lt_of_le hcovers.2 (Nat.add_le_add_left hfresh.1.2 _)⟩
    have hentered := h.enter hfresh st.host
      (fun addr ↦ if a.span.Covers addr then contents addr else st.mirror addr)
      (fun _ _ ↦ rfl) fun addr hout ↦ if_neg (mt (hstorage addr) hout)
    -- nothing is tracked at this base yet, as what is tracked is allocated
    have huntracked : st.trackingEnabled a.base = false := by
      apply eq_false_of_ne_true
      intro htracked
      obtain ⟨b, hb, hbase⟩ := h.tracked a.base htracked
      exact (hfresh.2 b hb).2 hbase.symm
    by_cases hmapped : a.mapped = true
    · have hmarked := hentered.track (List.mem_append_right _ (List.mem_singleton_self a)) true
        (Or.inl rfl)
      simpa only [MirrorState.enableDirtyTracking, MirrorState.enter, hmapped, huntracked,
        Bool.true_eq_false, Bool.false_eq_true, or_self, if_false, Function.update_self, if_true]
        using hmarked
    · simpa only [MirrorState.enableDirtyTracking, MirrorState.enter, hmapped, huntracked,
        Bool.false_eq_true, true_or, if_true, if_false] using hentered
  | prepareGraphHostSource host size =>
    obtain rfl := Option.some.inj hstep
    cases hfind : st.findHostAllocation host with
    | none => exact h
    | some a =>
      -- tracking begins only here, so what was written before has to be in step already
      simp only
      split_ifs
      · apply h.enableDirtyTracking (List.mem_of_find?_eq_some hfind)
        intro hmapped huntracked addr hcovers
        exact of_covers (p := fun addr ↦ st.host addr = st.mirror addr)
          (hcond a hfind hmapped huntracked) hcovers
      · exact h
  | hostWrite addr byte =>
    obtain rfl := Option.some.inj hstep
    exact h.hostWrite fun _ _ _ hopen ↦ hopen.elim
  | copyDtoH dstHost byteCount payload =>
    obtain ⟨-, rfl⟩ := Option.ite_some_none_eq_some.mp hstep
    exact h.copyDtoH hcond
  | flush route outcome =>
    obtain rfl := Option.some.inj hstep
    cases outcome with
    | sent => exact h.flushSent _
    | failed protectedPages delivered => exact h.flushFailed protectedPages delivered

end MirrorInv

/-! ## Clean pages -/

/-- The page is write-protected, and neither in the queue nor marked. -/
def MirrorState.Clean (st : MirrorState) (a : MirroredAllocation) (page : ℕ) : Prop :=
  st.writable a.base page = false ∧ ¬st.Dirty a page

instance (st : MirrorState) (a : MirroredAllocation) (page : ℕ) : Decidable (st.Clean a page) :=
  inferInstanceAs (Decidable (_ ∧ _))

/-- **Clean pages are as the mirror.** In every run in which copies from the device bring nothing
new to clean pages, and tracking begins on memory that is marked or as its mirror, a clean page of a
tracked allocation has the bytes of the mirror; and when a flush succeeds, all pages of its route
have. -/
theorem clean_pages_eq_mirror (config : MirrorConfig) (steps : List MirrorStep) (st : MirrorState)
    (hrun : ((mirrorMachine config).restrict (MirrorCond config)).run {} steps = some st)
    (a : MirroredAllocation) (ha : a ∈ st.allocations) (htracked : st.trackingEnabled a.base = true)
    (addr : ℕ) (hcovers : a.span.Covers addr) :
    (st.Clean a (a.pageIndex config addr) → st.host addr = st.mirror addr) ∧
      ∀ st', (mirrorMachine config).step st (.flush a.route .sent) = some st' →
        st'.host addr = st'.mirror addr := by
  have hinv : MirrorInv config noneOpened st := by
    refine Machine.run_invariant _ ?_ MirrorInv.init hrun
    intro st step st' hinv hstep
    obtain ⟨hcond, hstep⟩ := Machine.step_restrict.mp hstep
    exact hinv.step hcond hstep
  have hpage := pageIndex_lt (hinv.covers_storage ha hcovers)
  constructor
  · rintro ⟨-, hclean⟩
    exact ((hinv.clean a ha htracked _ hpage).resolve_left hclean).2 addr hcovers rfl
  · intro st' hstep
    obtain rfl := Option.some.inj hstep
    have hflushed := hinv.flushSent a.route
    apply ((hflushed.clean a ha htracked _ hpage).resolve_left ?_).2 addr hcovers rfl
    -- the flush leaves nothing of its route in the queue, and no mark
    rintro (hqueued | hmark)
    · simp only [MirrorState.flush, Function.update_self] at hqueued
      exact nomatch hqueued
    · by_cases hswept : ∃ b ∈ st.allocations, b.base = a.base ∧ st.Swept a.route b
      · exact nomatch (if_pos hswept).symm.trans hmark
      · have hmark := (if_neg hswept).symm.trans hmark
        exact hswept ⟨a, ha, rfl, hinv.pending ha hmark, rfl, htracked, hmark⟩

/-- A page that the size does not fill. -/
def mirroredPage : MirroredAllocation := ⟨0x1000, 12, 1, 0, true⟩

/-- A copy brings what the mirror has to a clean page; the page is written, a copy brings new bytes
to it, and a flush fails before it delivers anything. -/
def mirroredRun : List MirrorStep :=
  [.allocate mirroredPage true fun _ ↦ 0, .copyDtoH 0x1009 2 [0, 0], .hostWrite 0x1001 1,
    .copyDtoH 0x1002 1 [2], .flush 0 (.failed [(0x1000, 0)] [])]

theorem clean_pages_eq_mirror_failedFlush :
    ∃ st st', ((mirrorMachine {}).restrict (MirrorCond {})).run {} mirroredRun = some st ∧
      (mirrorMachine {}).step st (.flush 0 .sent) = some st' ∧
      st.mirror 0x1002 = 0 ∧ st'.mirror 0x1002 = 2 := by
  have hpossible : (((mirrorMachine {}).restrict (MirrorCond {})).run {}
      mirroredRun).any fun st ↦ mirroredPage ∈ st.allocations ∧ st.trackingEnabled 0x1000 = true ∧
        st.mirror 0x1002 = 0 ∧ st.host 0x1002 = 2 := by decide
  obtain ⟨st, hrun, hst⟩ := (Option.any_eq_true _ _).mp hpossible
  obtain ⟨hmem, htracked, hmirror, hhost⟩ := of_decide_eq_true hst
  have hafter := (clean_pages_eq_mirror {} mirroredRun st hrun mirroredPage hmem htracked 0x1002
    (by decide)).2 _ rfl
  exact ⟨st, _, hrun, rfl, hmirror, hafter.symm.trans hhost⟩

/-- **What the mirror does not learn.** A copy from the device into a clean page leaves it clean,
and no flush sends what it brought. Memory that was written before a captured copy began to track
it is clean as well. -/
theorem copied_bytes_stay_on_client :
    ((mirrorMachine {}).run {} [.allocate mirroredPage true fun _ ↦ 0,
        .copyDtoH 0x1000 1 [5], .flush 0 .sent]).any (fun st ↦
          st.trackingEnabled 0x1000 = true ∧ st.Clean mirroredPage 0 ∧ st.host 0x1000 = 5 ∧
            st.mirror 0x1000 = 0) = true ∧
    ((mirrorMachine {}).run {} [.allocate mirroredPage false fun _ ↦ 0, .hostWrite 0x1000 5,
        .prepareGraphHostSource 0x1000 1, .flush 0 .sent]).any (fun st ↦
          st.trackingEnabled 0x1000 = true ∧ st.Clean mirroredPage 0 ∧ st.host 0x1000 = 5 ∧
            st.mirror 0x1000 = 0) = true := by
  decide

end Lupine
