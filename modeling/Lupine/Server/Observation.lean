import Lupine.Foundation.Machine
import Lupine.Server.DtohCopies
import Lupine.Server.SyncCalls

/-!
# Delivering only what was seen to complete

A deferred copy may be sent once the server has seen it complete. Its lanes see completions by the
synchronizations and queries they make for the client, and send copies in the responses to these. A
lane makes its CUDA call first and takes copies off the pending list afterwards, so other lanes can
act in between.

## What a call shows

A successful call shows that the copies issued to its own stream, or in its context, before the call
are complete, or those issued to the stream of an event before the event was recorded. Which copies
that are is fixed when the call returns; which copies are taken is decided when the response is
written.

A copy is pending under the handle it was issued with, and a handler compares handles. The stream
itself is kept in the point of the copy: two lanes that use `CU_STREAM_PER_THREAD`, or two contexts
whose NULL stream is used, file copies of different streams under one handle.

## The invariant

Every pending copy has been issued, every copy that was sent is on the log of what calls have shown,
and a lane that is about to respond made its call on a state the server has been in, so that what
the call has shown is on the log as well. Responding is the only step that can break this, and it
keeps it where the copies it takes are among those its call has shown.
-/

namespace Lupine

open Foundation

/-! ## The state

The order of issue is a number of each copy, so what an event was recorded behind is a number
too. -/

/-- A deferred copy with its place in the order of issue, which names the stream behind the
handle. -/
structure IssuedCopy extends PendingDtohCopy where
  point : IssuePoint
  deriving DecidableEq, Repr

inductive LaneState where
  | idle
  /-- `cuMemcpyDtoHAsync_v2` has returned and the copy is about to become pending. -/
  | copied (copy : IssuedCopy)
  /-- A synchronization or query has returned and its response is about to be written. -/
  | answered (call : SyncCall) (site : CallSite)

/-- The server: its lanes, the copies issued to the driver, the events, the pending copies, the
copies some call has shown to be complete, and the copies sent. -/
structure ObservationState where
  lanes : ℕ → LaneState := fun _ ↦ .idle
  issued : List IssuedCopy := []
  records : CUevent → Option IssuePoint := fun _ ↦ none
  pending : List IssuedCopy := []
  observed : List IssuedCopy := []
  delivered : List IssuedCopy := []

section Server

variable (contextOf : CUstream → CUcontext)

/-! ## Calls -/

/-- A call shows a copy to be complete. A call on the NULL stream is taken to say nothing about
other streams. -/
def SyncCall.shows (call : SyncCall) (site : CallSite) (copy : IssuedCopy) : Bool :=
  call.covers contextOf (fun _ ↦ false) site copy.point

/-- What the handler of a call detaches and what stays: `handle_manual_cuEventQuery`,
`handle_manual_cuEventSynchronize`, `handle_cuStreamQuery`, `handle_manual_cuStreamSynchronize` and
`handle_manual_cuCtxSynchronize`, from the CUDA call on. -/
def SyncCall.detach (call : SyncCall) (pending : List IssuedCopy) :
    List IssuedCopy × List IssuedCopy :=
  match call with
  | eventQuery first _ =>
    if first.2 = .success then
      detachPendingDtohCopies IssuedCopy.toPendingDtohCopy pending 0 true
    else ([], pending)
  | eventSynchronize _ _ => detachPendingDtohCopies IssuedCopy.toPendingDtohCopy pending 0 true
  | streamQuery _ _ => ([], pending)
  | streamSynchronize stream _ =>
    detachPendingDtohCopies IssuedCopy.toPendingDtohCopy pending stream (stream == 0)
  | ctxSynchronize _ => detachPendingDtohCopies IssuedCopy.toPendingDtohCopy pending 0 true

/-! ## Steps

A lane takes two steps for a call, its CUDA call and the writing of its response. An idle lane may
also issue a copy, which is pending only when the lane has gone on. -/

inductive LaneStep where
  /-- The CUDA call of `handle_manual_cuMemcpyDtoHAsync_v2`, outside a capture. -/
  | memcpyDtoHAsync (lane : ℕ) (context : CUcontext) (copy : PendingDtohCopy) (result : CUresult)
  /-- The copy becomes pending. -/
  | keep (lane : ℕ)
  /-- `handle_manual_cuEventRecord`. -/
  | eventRecord (lane : ℕ) (context : CUcontext) (event : CUevent) (stream : CUstream)
      (result : CUresult)
  /-- The CUDA call of a synchronization or query returns. -/
  | call (lane : ℕ) (context : CUcontext) (call : SyncCall)
  /-- The response of the call is written. -/
  | respond (lane : ℕ)
  deriving DecidableEq, Repr

def laneStep (st : ObservationState) : LaneStep → Option ObservationState
  | .memcpyDtoHAsync lane context copy result =>
    match st.lanes lane with
    | .idle =>
      if result = .success ∧ copy.bytes ≠ 0 then
        let issued : IssuedCopy := ⟨copy, streamOf lane context copy.stream, st.issued.length⟩
        some { st with
          lanes := Function.update st.lanes lane (.copied issued)
          issued := st.issued ++ [issued] }
      else some st
    | _ => none
  | .keep lane =>
    match st.lanes lane with
    | .copied copy =>
      some { st with
        lanes := Function.update st.lanes lane .idle
        pending := st.pending ++ [copy] }
    | _ => none
  | .eventRecord lane context event stream result =>
    if result = .success then
      some { st with
        records := Function.update st.records event
          (some ⟨streamOf lane context stream, st.issued.length⟩) }
    else some st
  | .call lane context call =>
    match st.lanes lane with
    | .idle =>
      let site : CallSite := ⟨lane, context, st.issued.length, st.records⟩
      some { st with
        lanes := Function.update st.lanes lane (.answered call site)
        observed := st.observed ++ st.issued.filter fun copy ↦ call.shows contextOf site copy }
    | _ => none
  | .respond lane =>
    match st.lanes lane with
    | .answered call _ =>
      some { st with
        lanes := Function.update st.lanes lane .idle
        pending := (call.detach st.pending).2
        delivered := st.delivered ++ (call.detach st.pending).1 }
    | _ => none

def observation : Machine ObservationState LaneStep := ⟨laneStep contextOf⟩

/-! ## When nothing is sent too early

The condition looks at what is pending when a response is written, not at what was pending when the
call was made. -/

/-- Nothing is pending but copies issued to the stream of an event before it was recorded. -/
def onlyBefore (record : Option IssuePoint) (pending : List IssuedCopy) : Bool :=
  pending.all fun copy ↦ record.any fun r ↦ copy.point.before r

/-- What has to be pending, and what the driver has to have answered, when a response is written.
For a call on an event: the call succeeded, and only copies issued to the stream of the event before
it was recorded are pending. For a stream: where copies are pending under its handle, or any at all
for the null handle, the call succeeded, and they were issued to the stream it synchronized before
the call. For a context: the call succeeded, and only copies of the context issued before the call
are pending. A query that failed takes nothing, and neither does a query of a stream. -/
def SyncCall.inScope (call : SyncCall) (site : CallSite) (pending : List IssuedCopy) : Bool :=
  match call with
  | eventQuery first _ => first.2 != .success || onlyBefore (site.records first.1) pending
  | eventSynchronize event result =>
    pending.isEmpty || (result == .success && onlyBefore (site.records event) pending)
  | streamQuery _ _ => true
  | streamSynchronize stream result =>
    pending.all fun copy ↦
      !(stream == 0 || copy.stream == stream) ||
        (result == .success && streamOf site.lane site.context stream == copy.point.stream &&
          decide (copy.point.index < site.issued))
  | ctxSynchronize result =>
    pending.all fun copy ↦
      result == .success && copy.point.stream.context contextOf == site.context &&
        decide (copy.point.index < site.issued)

/-- Every response is written in scope. -/
def RespondsInScope (st : ObservationState) : LaneStep → Prop
  | .respond lane =>
    ∀ call site, st.lanes lane = .answered call site → call.inScope contextOf site st.pending
  | _ => True

instance (st : ObservationState) (step : LaneStep) :
    Decidable (RespondsInScope contextOf st step) :=
  match step with
  | .respond lane =>
    match h : st.lanes lane with
    | .answered call site =>
      decidable_of_iff (call.inScope contextOf site st.pending = true)
        ⟨fun hs call' site' h' ↦ by
          obtain ⟨rfl, rfl⟩ := LaneState.answered.inj (h.symm.trans h')
          exact hs,
        fun hs ↦ hs call site h⟩
    | .idle => isTrue fun call site h' ↦ by rw [h] at h'; exact absurd h' (by simp)
    | .copied _ => isTrue fun call site h' ↦ by rw [h] at h'; exact absurd h' (by simp)
  | .memcpyDtoHAsync .. => isTrue trivial
  | .keep .. => isTrue trivial
  | .eventRecord .. => isTrue trivial
  | .call .. => isTrue trivial

end Server

variable {contextOf : CUstream → CUcontext}

/-- In scope, every copy a handler takes is one its call has shown to be complete. -/
theorem SyncCall.shows_of_inScope {call : SyncCall} {site : CallSite} {pending : List IssuedCopy}
    (h : call.inScope contextOf site pending = true) {copy : IssuedCopy}
    (hcopy : copy ∈ (call.detach pending).1) : call.shows contextOf site copy = true := by
  cases call with
  | eventQuery first others =>
    rw [detach] at hcopy
    split_ifs at hcopy with hsuccess
    · have hbefore : onlyBefore (site.records first.1) pending = true := by
        simpa [inScope, hsuccess] using h
      have hrecord := List.all_eq_true.mp hbefore copy hcopy
      rw [shows, covers, List.any_cons, CallSite.coversEvent, hsuccess, hrecord]
      rfl
    · exact absurd hcopy List.not_mem_nil
  | eventSynchronize event result =>
    have hne : pending.isEmpty = false := List.isEmpty_eq_false_iff_exists_mem.mpr ⟨copy, hcopy⟩
    rw [inScope, hne, Bool.false_or, Bool.and_eq_true] at h
    rw [shows, covers, CallSite.coversEvent, h.1, List.all_eq_true.mp h.2 copy hcopy]
    rfl
  | streamQuery stream result => exact absurd hcopy List.not_mem_nil
  | streamSynchronize stream result =>
    have hmem : copy ∈ pending ∧ (stream == 0 || copy.stream == stream) = true := by
      rw [detach, detachPendingDtohCopies] at hcopy
      split_ifs at hcopy with hall
      · exact ⟨hcopy, by rw [hall, Bool.true_or]⟩
      · obtain ⟨hpending, hstream⟩ := List.mem_filter.mp hcopy
        exact ⟨hpending, by rw [hstream, Bool.or_true]⟩
    have hscope := List.all_eq_true.mp h copy hmem.1
    rw [hmem.2, Bool.not_true, Bool.false_or] at hscope
    rw [shows, covers, CallSite.coversStream, DeviceStream.waitsFor, Bool.and_false, Bool.or_false]
    exact hscope
  | ctxSynchronize result => exact List.all_eq_true.mp h copy hcopy

/-! ## The invariant -/

structure ObservationInv (contextOf : CUstream → CUcontext) (st : ObservationState) : Prop where
  /-- The place of a copy in the order of issue is before that of the next one. -/
  index_lt : ∀ copy ∈ st.issued, copy.point.index < st.issued.length
  record_le : ∀ event record, st.records event = some record → record.index ≤ st.issued.length
  pending_issued : ∀ copy ∈ st.pending, copy ∈ st.issued
  copied_issued : ∀ lane copy, st.lanes lane = .copied copy → copy ∈ st.issued
  /-- A call was made on a state the server has been in. -/
  site_le : ∀ lane call site, st.lanes lane = .answered call site → site.issued ≤ st.issued.length ∧
    ∀ event record, site.records event = some record → record.index ≤ st.issued.length
  /-- What a call has shown is on the log, and copies issued since are not what it has shown. -/
  shown : ∀ lane call site, st.lanes lane = .answered call site →
    ∀ copy ∈ st.issued, call.shows contextOf site copy = true → copy ∈ st.observed
  delivered : ∀ copy ∈ st.delivered, copy ∈ st.observed
  /-- No copy is lost. -/
  kept : ∀ copy ∈ st.issued, copy ∈ st.pending ∨ copy ∈ st.delivered ∨
    ∃ lane, st.lanes lane = .copied copy

theorem observationInv_init : ObservationInv contextOf {} where
  index_lt _ h := absurd h List.not_mem_nil
  record_le _ _ h := nomatch h
  pending_issued _ h := absurd h List.not_mem_nil
  copied_issued _ _ h := nomatch h
  site_le _ _ _ h := nomatch h
  shown _ _ _ h := nomatch h
  delivered _ h := absurd h List.not_mem_nil
  kept _ h := absurd h List.not_mem_nil

theorem SyncCall.mem_detach {call : SyncCall} {pending : List IssuedCopy} {copy : IssuedCopy} :
    copy ∈ pending ↔ copy ∈ (call.detach pending).1 ∨ copy ∈ (call.detach pending).2 := by
  have hall : ∀ stream, copy ∈ pending ↔
      copy ∈ (detachPendingDtohCopies IssuedCopy.toPendingDtohCopy pending stream true).1 ∨
        copy ∈ (detachPendingDtohCopies IssuedCopy.toPendingDtohCopy pending stream true).2 := by
    simp [detachPendingDtohCopies]
  cases call with
  | eventQuery first others =>
    rw [detach]
    split_ifs
    · exact hall 0
    · simp
  | eventSynchronize event result => exact hall 0
  | streamQuery stream result => simp [detach]
  | streamSynchronize stream result =>
    rw [detach]
    cases hstream : stream == 0 with
    | true => exact hall stream
    | false =>
      simp only [detachPendingDtohCopies, Bool.false_eq_true, if_false, List.mem_filter, beq_iff_eq,
        bne_iff_ne, ne_eq]
      tauto
  | ctxSynchronize result => exact hall 0

theorem copied_update_of_idle {lanes : ℕ → LaneState} {lane : ℕ} {x : LaneState}
    {copy : IssuedCopy} (hidle : lanes lane = .idle) (h : ∃ l, lanes l = .copied copy) :
    ∃ l, Function.update lanes lane x l = .copied copy := by
  obtain ⟨l, hl⟩ := h
  have hne : l ≠ lane := by
    rintro rfl
    exact absurd (hidle.symm.trans hl) (by simp)
  exact ⟨l, (Function.update_of_ne hne _ _).trans hl⟩

/-! ## Steps keep the invariant

The log of what calls have shown only grows. -/

namespace ObservationInv

variable {st st' : ObservationState}

theorem memcpyDtoHAsync (h : ObservationInv contextOf st) {lane : ℕ} (hidle : st.lanes lane = .idle)
    (copy : PendingDtohCopy) (stream : DeviceStream) :
    ObservationInv contextOf { st with
      lanes := Function.update st.lanes lane (.copied ⟨copy, stream, st.issued.length⟩)
      issued := st.issued ++ [⟨copy, stream, st.issued.length⟩] } where
  index_lt c hc := by
    rw [List.length_append]
    rcases List.mem_append.mp hc with hold | hnew
    · exact Nat.lt_add_right 1 (h.index_lt c hold)
    · rw [List.mem_singleton.mp hnew]
      exact Nat.lt_succ_self _
  record_le event record hrecord := by
    rw [List.length_append]
    exact Nat.le_add_right_of_le (h.record_le event record hrecord)
  pending_issued c hc := List.mem_append_left _ (h.pending_issued c hc)
  copied_issued lane' c hc := by
    rcases eq_or_of_update hc with ⟨-, hnew⟩ | ⟨-, hold⟩
    · obtain rfl := LaneState.copied.inj hnew
      exact List.mem_append_right _ (List.mem_singleton_self _)
    · exact List.mem_append_left _ (h.copied_issued lane' c hold)
  site_le lane' call site hcall := by
    rcases eq_or_of_update hcall with ⟨-, hnew⟩ | ⟨-, hold⟩
    · exact absurd hnew (by simp)
    · rw [List.length_append]
      obtain ⟨hsite, hrecords⟩ := h.site_le lane' call site hold
      exact ⟨Nat.le_add_right_of_le hsite,
        fun event record hr ↦ Nat.le_add_right_of_le (hrecords event record hr)⟩
  shown lane' call site hcall c hc hcovers := by
    rcases eq_or_of_update hcall with ⟨-, hnew⟩ | ⟨-, hold⟩
    · exact absurd hnew (by simp)
    · rcases List.mem_append.mp hc with hissued | hlast
      · exact h.shown lane' call site hold c hissued hcovers
      · -- the copy is issued after the call, which therefore does not cover it
        obtain ⟨hsite, hrecords⟩ := h.site_le lane' call site hold
        have hlt := SyncCall.index_lt_of_covers hsite hrecords hcovers
        rw [List.mem_singleton.mp hlast] at hlt
        exact absurd hlt (lt_irrefl _)
  delivered := h.delivered
  kept c hc := by
    rcases List.mem_append.mp hc with hissued | hlast
    · exact (h.kept c hissued).imp_right (Or.imp_right (copied_update_of_idle hidle))
    · rw [List.mem_singleton.mp hlast]
      exact Or.inr (Or.inr ⟨lane, Function.update_self ..⟩)

theorem keep (h : ObservationInv contextOf st) {lane : ℕ} {copy : IssuedCopy}
    (hcopied : st.lanes lane = .copied copy) :
    ObservationInv contextOf { st with
      lanes := Function.update st.lanes lane .idle
      pending := st.pending ++ [copy] } where
  index_lt := h.index_lt
  record_le := h.record_le
  pending_issued c hc := by
    rcases List.mem_append.mp hc with hold | hnew
    · exact h.pending_issued c hold
    · rw [List.mem_singleton.mp hnew]
      exact h.copied_issued lane copy hcopied
  copied_issued lane' c hc := by
    rcases eq_or_of_update hc with ⟨-, hnew⟩ | ⟨-, hold⟩
    · exact absurd hnew (by simp)
    · exact h.copied_issued lane' c hold
  site_le lane' call site hcall := by
    rcases eq_or_of_update hcall with ⟨-, hnew⟩ | ⟨-, hold⟩
    · exact absurd hnew (by simp)
    · exact h.site_le lane' call site hold
  shown lane' call site hcall := by
    rcases eq_or_of_update hcall with ⟨-, hnew⟩ | ⟨-, hold⟩
    · exact absurd hnew (by simp)
    · exact h.shown lane' call site hold
  delivered := h.delivered
  kept c hc := by
    rcases h.kept c hc with hpending | hdelivered | ⟨lane', hlane'⟩
    · exact Or.inl (List.mem_append_left _ hpending)
    · exact Or.inr (Or.inl hdelivered)
    · rcases eq_or_ne lane' lane with rfl | hne
      · obtain rfl := LaneState.copied.inj (hcopied.symm.trans hlane')
        exact Or.inl (List.mem_append_right _ (List.mem_singleton_self _))
      · exact Or.inr (Or.inr ⟨lane', (Function.update_of_ne hne _ _).trans hlane'⟩)

theorem eventRecord (h : ObservationInv contextOf st) (event : CUevent) (stream : DeviceStream) :
    ObservationInv contextOf { st with
      records := Function.update st.records event (some ⟨stream, st.issued.length⟩) } where
  index_lt := h.index_lt
  record_le event' record hrecord := by
    rcases eq_or_of_update hrecord with ⟨-, hnew⟩ | ⟨-, hold⟩
    · obtain rfl := Option.some.inj hnew
      exact le_rfl
    · exact h.record_le event' record hold
  pending_issued := h.pending_issued
  copied_issued := h.copied_issued
  site_le := h.site_le
  shown := h.shown
  delivered := h.delivered
  kept := h.kept

theorem call (h : ObservationInv contextOf st) {lane : ℕ} (hidle : st.lanes lane = .idle)
    (context : CUcontext) (call : SyncCall) :
    ObservationInv contextOf { st with
      lanes := Function.update st.lanes lane
        (.answered call ⟨lane, context, st.issued.length, st.records⟩)
      observed := st.observed ++ st.issued.filter fun copy ↦
        call.shows contextOf ⟨lane, context, st.issued.length, st.records⟩ copy } where
  index_lt := h.index_lt
  record_le := h.record_le
  pending_issued := h.pending_issued
  copied_issued lane' c hc := by
    rcases eq_or_of_update hc with ⟨-, hnew⟩ | ⟨-, hold⟩
    · exact absurd hnew (by simp)
    · exact h.copied_issued lane' c hold
  site_le lane' call' site hcall := by
    rcases eq_or_of_update hcall with ⟨-, hnew⟩ | ⟨-, hold⟩
    · obtain ⟨-, rfl⟩ := LaneState.answered.inj hnew
      exact ⟨le_rfl, h.record_le⟩
    · exact h.site_le lane' call' site hold
  shown lane' call' site hcall c hc hcovers := by
    rcases eq_or_of_update hcall with ⟨-, hnew⟩ | ⟨-, hold⟩
    · obtain ⟨rfl, rfl⟩ := LaneState.answered.inj hnew
      exact List.mem_append_right _ (List.mem_filter.mpr ⟨hc, hcovers⟩)
    · exact List.mem_append_left _ (h.shown lane' call' site hold c hc hcovers)
  delivered c hc := List.mem_append_left _ (h.delivered c hc)
  kept c hc := (h.kept c hc).imp_right (Or.imp_right (copied_update_of_idle hidle))

theorem respond (h : ObservationInv contextOf st) {lane : ℕ} {call : SyncCall} {site : CallSite}
    (hanswered : st.lanes lane = .answered call site)
    (hscope : call.inScope contextOf site st.pending = true) :
    ObservationInv contextOf { st with
      lanes := Function.update st.lanes lane .idle
      pending := (call.detach st.pending).2
      delivered := st.delivered ++ (call.detach st.pending).1 } where
  index_lt := h.index_lt
  record_le := h.record_le
  pending_issued c hc := h.pending_issued c (SyncCall.mem_detach.mpr (Or.inr hc))
  copied_issued lane' c hc := by
    rcases eq_or_of_update hc with ⟨-, hnew⟩ | ⟨-, hold⟩
    · exact absurd hnew (by simp)
    · exact h.copied_issued lane' c hold
  site_le lane' call' site' hcall := by
    rcases eq_or_of_update hcall with ⟨-, hnew⟩ | ⟨-, hold⟩
    · exact absurd hnew (by simp)
    · exact h.site_le lane' call' site' hold
  shown lane' call' site' hcall := by
    rcases eq_or_of_update hcall with ⟨-, hnew⟩ | ⟨-, hold⟩
    · exact absurd hnew (by simp)
    · exact h.shown lane' call' site' hold
  delivered c hc := by
    rcases List.mem_append.mp hc with hold | hnew
    · exact h.delivered c hold
    · have hissued := h.pending_issued c (SyncCall.mem_detach.mpr (Or.inl hnew))
      exact h.shown lane call site hanswered c hissued (SyncCall.shows_of_inScope hscope hnew)
  kept c hc := by
    rcases h.kept c hc with hpending | hdelivered | ⟨lane', hlane'⟩
    · rcases SyncCall.mem_detach.mp hpending with htaken | hleft
      · exact Or.inr (Or.inl (List.mem_append_right _ htaken))
      · exact Or.inl hleft
    · exact Or.inr (Or.inl (List.mem_append_left _ hdelivered))
    · have hne : lane' ≠ lane := by
        rintro rfl
        exact absurd (hanswered.symm.trans hlane') (by simp)
      exact Or.inr (Or.inr ⟨lane', (Function.update_of_ne hne _ _).trans hlane'⟩)

/-- **Every step in scope keeps the invariant.** -/
theorem laneStep {step : LaneStep} (h : ObservationInv contextOf st)
    (hscope : RespondsInScope contextOf st step) (hstep : laneStep contextOf st step = some st') :
    ObservationInv contextOf st' := by
  cases step with
  | memcpyDtoHAsync lane context copy result =>
    simp only [Lupine.laneStep] at hstep
    split at hstep
    · next hidle =>
      split_ifs at hstep
      · exact Option.some.inj hstep ▸ h.memcpyDtoHAsync hidle copy _
      · exact Option.some.inj hstep ▸ h
    · exact nomatch hstep
  | keep lane =>
    simp only [Lupine.laneStep] at hstep
    split at hstep
    · next copy hcopied => exact Option.some.inj hstep ▸ h.keep hcopied
    · exact nomatch hstep
  | eventRecord lane context event stream result =>
    simp only [Lupine.laneStep] at hstep
    split_ifs at hstep
    · exact Option.some.inj hstep ▸ h.eventRecord event _
    · exact Option.some.inj hstep ▸ h
  | call lane context call =>
    simp only [Lupine.laneStep] at hstep
    split at hstep
    · next hidle => exact Option.some.inj hstep ▸ h.call hidle context call
    · exact nomatch hstep
  | respond lane =>
    simp only [Lupine.laneStep] at hstep
    split at hstep
    · next call site hanswered =>
      exact Option.some.inj hstep ▸ h.respond hanswered (hscope call site hanswered)
    · exact nomatch hstep

end ObservationInv

/-- **Nothing is sent before it was seen to complete.** In every run, over any lanes, streams and
contexts, in which every response is written in scope, and in every state it reaches: each copy
that was sent had been shown complete by a successful synchronization or query of its stream, of its
context, or of an event recorded after it on its stream; and a copy no call has shown complete is
still pending, or about to be. -/
theorem delivered_only_observed {steps : List LaneStep} {st : ObservationState}
    (hrun : ((observation contextOf).restrict (RespondsInScope contextOf)).run {} steps = some st) :
    (∀ copy ∈ st.delivered, copy ∈ st.observed) ∧
      ∀ copy ∈ st.issued, copy ∉ st.observed →
        copy ∈ st.pending ∨ ∃ lane, st.lanes lane = .copied copy := by
  have hinv : ObservationInv contextOf st := by
    refine Machine.run_invariant _ (fun s step s' hs hstep ↦ ?_) observationInv_init hrun
    obtain ⟨hscope, hstep⟩ := Machine.step_restrict.mp hstep
    exact hs.laneStep hscope hstep
  refine ⟨hinv.delivered, fun copy hissued hunseen ↦ ?_⟩
  rcases hinv.kept copy hissued with hpending | hdelivered | hlane
  · exact Or.inl hpending
  · exact absurd (hinv.delivered copy hdelivered) hunseen
  · exact Or.inr hlane

/-- A copy on stream 3, and its synchronization by another lane. -/
theorem delivered_only_observed_synchronize :
    ∃ st, ((observation fun _ ↦ 1).restrict (RespondsInScope fun _ ↦ 1)).run {}
        [.memcpyDtoHAsync 0 1 ⟨3, 4096, 8, 1, true⟩ .success, .keep 0,
          .call 1 1 (.streamSynchronize 3 .success), .respond 1] = some st ∧
      ∀ copy ∈ st.delivered, copy ∈ st.observed := by
  have hpossible : (((observation fun _ ↦ 1).restrict (RespondsInScope fun _ ↦ 1)).run {}
      [.memcpyDtoHAsync 0 1 ⟨3, 4096, 8, 1, true⟩ .success, .keep 0,
        .call 1 1 (.streamSynchronize 3 .success), .respond 1]).isSome = true := by
    decide
  obtain ⟨st, hrun⟩ := Option.isSome_iff_exists.mp hpossible
  exact ⟨st, hrun, (delivered_only_observed hrun).1⟩

/-- A copy that is still running on stream 3 is sent with the response of a synchronization of an
event, which was recorded on stream 4 before the copy was issued; and a copy that a lane issued to
its own per-thread stream is sent when another lane has synchronized the per-thread stream of its
own. -/
theorem eventSynchronize_delivers_unobserved :
    (((observation fun _ ↦ 1).run {}
        [.eventRecord 0 1 5 4 .success, .memcpyDtoHAsync 0 1 ⟨3, 4096, 8, 1, true⟩ .success,
          .keep 0, .call 1 1 (.eventSynchronize 5 .success), .respond 1]).map
      fun st ↦ (st.delivered, st.observed)) =
        some ([⟨⟨3, 4096, 8, 1, true⟩, .created 3, 0⟩], []) ∧
    (((observation fun _ ↦ 1).run {}
        [.memcpyDtoHAsync 0 1 ⟨streamPerThread, 4096, 8, 1, true⟩ .success, .keep 0,
          .call 1 1 (.streamSynchronize streamPerThread .success), .respond 1]).map
      fun st ↦ (st.delivered, st.observed)) =
        some ([⟨⟨streamPerThread, 4096, 8, 1, true⟩, .perThread 0 1, 0⟩], []) := by
  decide

end Lupine
