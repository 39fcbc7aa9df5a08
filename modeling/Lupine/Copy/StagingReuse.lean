import Lupine.Copy.AsyncStaging

/-!
# Reuse of staging buffers

Whether a buffer may be used again is a question about the calls made about it, and the states that
the server keeps answer it: the buffer of an available slot is idle, and behind the copies from a
slot in flight stands its event. The one exception is the slot of the operation between a copy and
its publication, which no other operation sees.

## The sweeps

Reclaiming, retiring and forgetting visit slots and spills one by one, so each is sound because each
visit is. They run between two operations or while a slot is looked for, when there is no exception.

## What the invariant says

All slots are sound but one, and all uses so far were proven. The exception is known from the stage
of the operation: it is the slot whose copy was submitted and is not published yet. Publishing makes
it sound again, in flight with its event or quarantined, so between two operations there is none.
-/

namespace Lupine

open Foundation

/-! ## Proven buffers

Calls about a buffer are kept in the order they were made. When the event behind every copy from it
is complete, no copy is running; a fresh buffer and none at all are idle. -/

/-- No copy from the buffer can be running. -/
def Idle (ptr : Option BufferHistory) : Prop := ∀ calls, ptr = some calls → calls.inDoubt = false

/-- The event stands behind every copy from the buffer. -/
def Marked (ptr : Option BufferHistory) : Prop := ∀ calls, ptr = some calls → calls.marked

section Pointers

variable {ptr : Option BufferHistory}

theorem idle_none : Idle none := fun _ h ↦ absurd h (by simp)

theorem idle_fresh : Idle (some []) := by
  rintro calls hcalls
  rw [← Option.some.inj hcalls]
  exact BufferHistory.inDoubt_nil

theorem exists_of_noteCall {call : BufferCall} {calls : BufferHistory}
    (h : noteCall call ptr = some calls) : ∃ older, ptr = some older ∧ call :: older = calls :=
  Option.map_eq_some_iff.mp h

theorem Idle.unmark (h : Idle ptr) : Idle (noteCall .unmark ptr) := by
  rintro calls hcalls
  obtain ⟨older, holder, rfl⟩ := exists_of_noteCall hcalls
  exact h older holder

/-- When the event behind every copy is complete, no copy is running. -/
theorem Marked.success (h : Marked ptr) : Idle (noteCall (.poll (progressOf .success)) ptr) := by
  rintro calls hcalls
  obtain ⟨older, holder, rfl⟩ := exists_of_noteCall hcalls
  exact BufferHistory.inDoubt_reached (h older holder)

theorem Marked.notReady (h : Marked ptr) :
    Marked (noteCall (.poll (progressOf .errorNotReady)) ptr) := by
  rintro calls hcalls
  obtain ⟨older, holder, rfl⟩ := exists_of_noteCall hcalls
  exact (BufferHistory.marked_running).trans (h older holder)

theorem marked_recorded : Marked (noteCall (.mark true) ptr) := by
  rintro calls hcalls
  obtain ⟨older, -, rfl⟩ := exists_of_noteCall hcalls
  rfl

end Pointers

/-- Nothing was handed out or freed while a copy from it could be running. -/
def StagingShared.UsesProven (e : StagingShared) : Prop :=
  ∀ use ∈ e.uses, use.calls.inDoubt = false

namespace StagingShared.UsesProven

variable {e : StagingShared} {ptr : Option BufferHistory}

theorem handOut (h : e.UsesProven) (hptr : Idle ptr) : (e.handOut ptr).UsesProven := by
  rintro use huse
  rcases List.mem_append.mp huse with huse | huse
  · obtain ⟨calls, hcalls, rfl⟩ := Option.map_eq_some_iff.mp (Option.mem_toList.mp huse)
    exact hptr calls hcalls
  · exact h use huse

theorem freeHost (h : e.UsesProven) (hptr : Idle ptr) (switched : Bool) :
    (e.asyncHtodFreeHost ptr switched).UsesProven := by
  rw [asyncHtodFreeHost]
  split_ifs
  · rintro use huse
    rcases List.mem_append.mp huse with huse | huse
    · obtain ⟨calls, hcalls, rfl⟩ := Option.map_eq_some_iff.mp (Option.mem_toList.mp huse)
      exact hptr calls hcalls
    · exact h use huse
  · exact h

end StagingShared.UsesProven

/-- **A sound slot.** Available means idle; in flight, its event stands behind its copies. -/
structure AsyncHtodSlot.Sound (slot : AsyncHtodSlot) : Prop where
  idle : slot.state = .available → Idle slot.ptr
  flying : slot.state = .inFlight → Marked slot.ptr

/-- **A sound spill.** A recorded event stands behind its copies, and before a copy is submitted it
is idle. -/
structure AsyncHtodSpill.Sound (spill : AsyncHtodSpill) : Prop where
  recorded : spill.completionRecorded → spill.workQueued ∧ Marked spill.ptr
  fresh : spill.workQueued = false → Idle spill.ptr

namespace AsyncHtodSlot

variable {slot : AsyncHtodSlot} {e : StagingShared} {context : CUcontext}

theorem sound_empty : Sound {} := ⟨fun _ ↦ idle_none, fun h ↦ absurd h (by simp)⟩

theorem sound_of_available (hstate : slot.state = .available) (hptr : Idle slot.ptr) :
    slot.Sound :=
  ⟨fun _ ↦ hptr, fun h ↦ absurd (hstate.symm.trans h) (by simp)⟩

theorem sound_of_quarantined (hstate : slot.state = .quarantined) : slot.Sound :=
  ⟨fun h ↦ absurd (hstate.symm.trans h) (by simp), fun h ↦ absurd (hstate.symm.trans h) (by simp)⟩

theorem Sound.reclaim (h : slot.Sound) (he : e.UsesProven) (result : CUresult) :
    (slot.reclaim e context result).1.Sound ∧
      (slot.reclaim e context result).2.UsesProven := by
  rw [AsyncHtodSlot.reclaim]
  split_ifs with hskip hsuccess hfailed
  · exact ⟨h, he⟩
  · rw [not_or, not_not] at hskip
    rw [hsuccess]
    exact ⟨sound_of_available rfl (h.flying hskip.1).success, he⟩
  · exact ⟨sound_of_quarantined rfl, he⟩
  · rw [not_or, not_not] at hskip
    rw [not_not] at hfailed
    rw [hfailed]
    refine ⟨⟨fun hidle ↦ absurd (hskip.1.symm.trans hidle) (by simp), fun _ ↦ ?_⟩, he⟩
    exact (h.flying hskip.1).notReady

theorem Sound.drop (h : slot.Sound) (hstate : slot.state = .available) (he : e.UsesProven)
    (switched : Bool) :
    (slot.drop e context switched).1.Sound ∧ (slot.drop e context switched).2.UsesProven := by
  have hptr : Idle slot.destroyEvent.ptr := (h.idle hstate).unmark
  have hreleased : (e.releaseStagingWindow slot.heldWindowBytes).UsesProven := he
  rw [AsyncHtodSlot.drop]
  split_ifs
  · exact ⟨sound_empty, hreleased.freeHost hptr switched⟩
  · exact ⟨sound_of_available hstate hptr, he⟩

theorem Sound.retire (h : slot.Sound) (he : e.UsesProven) (result : CUresult) (switched : Bool) :
    (slot.retire e context result switched).1.Sound ∧
      (slot.retire e context result switched).2.UsesProven := by
  rw [AsyncHtodSlot.retire]
  split_ifs
  · exact ⟨h, he⟩
  split
  next hstate => exact h.drop hstate he switched
  next => exact ⟨h, he⟩
  next hstate =>
    have hmarked := h.flying hstate
    simp only
    -- only the answer matters, not who gave it
    generalize asyncHtodQuery slot.completion result = answer
    split_ifs with hrunning hfailed
    · rw [hrunning]
      exact ⟨⟨fun hidle ↦ absurd (hstate.symm.trans hidle) (by simp),
        fun _ ↦ hmarked.notReady⟩, he⟩
    · exact ⟨sound_of_quarantined rfl, he⟩
    · rw [not_not] at hfailed
      rw [hfailed]
      exact Sound.drop (sound_of_available rfl hmarked.success) rfl he switched

theorem Sound.forget (h : slot.Sound) (he : e.UsesProven) :
    (slot.forget e context).1.Sound ∧ (slot.forget e context).2.UsesProven := by
  rw [AsyncHtodSlot.forget]
  split_ifs
  · exact ⟨sound_empty, he⟩
  · exact ⟨h, he⟩

theorem sound_publish (he : e.UsesProven) (result : CUresult) :
    (slot.publish e result).1.Sound ∧ (slot.publish e result).2.UsesProven := by
  rw [AsyncHtodSlot.publish]
  split_ifs
  · exact ⟨⟨fun hidle ↦ absurd hidle (by simp), fun _ ↦ marked_recorded⟩, he⟩
  · exact ⟨sound_of_quarantined rfl, he⟩

/-! ### A slot is prepared

A slot that is prepared stays available, and only an idle buffer was freed for it. -/

section Prepare

variable (context) (slotBytes : ℕ) (hstate : slot.state = .available)
include hstate

theorem state_fit (switched : Bool) :
    (slot.fit e context slotBytes switched).1.state = .available := by
  rw [AsyncHtodSlot.fit]
  split_ifs
  · rw [resetAvailable, if_neg (not_not.mpr hstate)]
  · exact hstate

theorem state_allocate (allocated : Bool) :
    (slot.allocate context slotBytes allocated).2.state = .available := by
  rw [AsyncHtodSlot.allocate]
  split_ifs <;> exact hstate

theorem state_createEvent (created : Bool) :
    (slot.createEvent context created).2.state = .available := by
  rw [AsyncHtodSlot.createEvent]
  split_ifs <;> exact hstate

theorem state_prepare (answers : PrepareAnswers) :
    (slot.prepare e context slotBytes answers).2.1.state = .available := by
  have hfit := state_fit (e := e) context slotBytes hstate answers.switched
  have hallocate := state_allocate context slotBytes hfit answers.allocated
  rw [AsyncHtodSlot.prepare, if_neg (not_not.mpr hstate)]
  simp only
  split_ifs
  · exact state_createEvent context hallocate answers.created
  · exact hallocate

theorem Sound.fit (h : slot.Sound) (he : e.UsesProven) (switched : Bool) :
    (slot.fit e context slotBytes switched).1.Sound ∧
      (slot.fit e context slotBytes switched).2.UsesProven := by
  rw [AsyncHtodSlot.fit]
  split_ifs
  · rw [resetAvailable, if_neg (not_not.mpr hstate)]
    exact ⟨sound_empty, he.freeHost (h.idle hstate).unmark switched⟩
  · exact ⟨h, he⟩

theorem Sound.allocate (h : slot.Sound) (allocated : Bool) :
    (slot.allocate context slotBytes allocated).2.Sound := by
  rw [AsyncHtodSlot.allocate]
  split_ifs
  · exact h
  · exact sound_of_available hstate idle_fresh
  · exact h

theorem Sound.createEvent (h : slot.Sound) (created : Bool) :
    (slot.createEvent context created).2.Sound := by
  have hptr : Idle slot.destroyEvent.ptr := (h.idle hstate).unmark
  rw [AsyncHtodSlot.createEvent]
  split_ifs
  · exact sound_of_available hstate hptr
  · exact sound_of_available hstate hptr
  · exact sound_of_available hstate hptr
  · exact h
  · exact sound_of_available hstate (h.idle hstate)
  · exact h

theorem Sound.prepare (h : slot.Sound) (he : e.UsesProven) (answers : PrepareAnswers) :
    (slot.prepare e context slotBytes answers).2.1.Sound ∧
      (slot.prepare e context slotBytes answers).2.2.UsesProven := by
  obtain ⟨hfit, huses⟩ := h.fit context slotBytes hstate he answers.switched
  have hstateFit := state_fit (e := e) context slotBytes hstate answers.switched
  have hstateAllocate := state_allocate context slotBytes hstateFit answers.allocated
  have hallocate := hfit.allocate context slotBytes hstateFit answers.allocated
  rw [AsyncHtodSlot.prepare, if_neg (not_not.mpr hstate)]
  simp only
  split_ifs
  · exact ⟨hallocate.createEvent context hstateAllocate answers.created, huses⟩
  · exact ⟨hallocate, huses⟩

end Prepare

end AsyncHtodSlot

namespace AsyncHtodSpill

variable {spill : AsyncHtodSpill} {e : StagingShared} {context : CUcontext}

theorem sound_giveUp (h : spill.workQueued) : (spill.giveUp e).1.Sound :=
  ⟨fun hrecorded ↦ absurd hrecorded Bool.false_ne_true,
    fun hfresh ↦ absurd (h.symm.trans hfresh) (by simp)⟩

theorem sound_publish (h : spill.workQueued) (he : e.UsesProven) (result : CUresult) :
    (spill.publish e result).1.Sound ∧ (spill.publish e result).2.UsesProven := by
  rw [AsyncHtodSpill.publish]
  split_ifs
  · exact ⟨⟨fun _ ↦ ⟨h, marked_recorded⟩, fun hfresh ↦ absurd (h.symm.trans hfresh) (by simp)⟩,
      he⟩
  · exact ⟨sound_giveUp h, he⟩

theorem usesProven_discard (hptr : Idle spill.ptr) (he : e.UsesProven) (switched : Bool) :
    (spill.discard e switched).UsesProven := by
  have hreleased : (e.releaseStagingWindow spill.heldWindowBytes).UsesProven := he
  exact hreleased.freeHost hptr.unmark switched

theorem Sound.answered (h : spill.Sound) (hrecorded : spill.completionRecorded)
    (he : e.UsesProven) (result : CUresult) (switched : Bool) :
    (∀ left, (spill.answered e result switched).1 = some left → left.Sound) ∧
      (spill.answered e result switched).2.UsesProven := by
  obtain ⟨hqueued, hmarked⟩ := h.recorded hrecorded
  rw [AsyncHtodSpill.answered]
  split_ifs with hrunning hfailed
  · rw [hrunning]
    refine ⟨?_, he⟩
    rintro left ⟨⟩
    exact ⟨fun _ ↦ ⟨hqueued, hmarked.notReady⟩,
      fun hfresh ↦ absurd (hqueued.symm.trans hfresh) (by simp)⟩
  · refine ⟨?_, he⟩
    rintro left ⟨⟩
    exact sound_giveUp hqueued
  · rw [not_not] at hfailed
    rw [hfailed]
    exact ⟨fun left hleft ↦ absurd hleft (by simp), usesProven_discard hmarked.success he switched⟩

theorem Sound.reclaim (h : spill.Sound) (he : e.UsesProven) (result : CUresult)
    (switched : Bool) :
    (∀ left, (spill.reclaim e context result switched).1 = some left → left.Sound) ∧
      (spill.reclaim e context result switched).2.UsesProven := by
  rw [AsyncHtodSpill.reclaim]
  split_ifs with hskip
  · exact ⟨fun left hleft ↦ Option.some.inj hleft ▸ h, he⟩
  · rw [not_or, Bool.not_eq_false] at hskip
    exact h.answered hskip.1 he result switched

theorem Sound.retire (h : spill.Sound) (he : e.UsesProven) (result : CUresult) (switched : Bool) :
    (∀ left, (spill.retire e context result switched).1 = some left → left.Sound) ∧
      (spill.retire e context result switched).2.UsesProven := by
  rw [AsyncHtodSpill.retire]
  split_ifs with hother hfresh hrecorded
  · exact ⟨fun left hleft ↦ Option.some.inj hleft ▸ h, he⟩
  · exact ⟨fun left hleft ↦ absurd hleft (by simp),
      usesProven_discard (h.fresh hfresh) he switched⟩
  · exact ⟨fun left hleft ↦ Option.some.inj hleft ▸ h, he⟩
  · exact h.answered ((Bool.not_eq_false _).mp hrecorded) he _ switched

theorem Sound.forget (h : spill.Sound) (he : e.UsesProven) :
    (∀ left, (spill.forget e context).1 = some left → left.Sound) ∧
      (spill.forget e context).2.UsesProven := by
  rw [AsyncHtodSpill.forget]
  split_ifs
  · exact ⟨fun left hleft ↦ Option.some.inj hleft ▸ h, he⟩
  · exact ⟨fun left hleft ↦ absurd hleft (by simp), he⟩

end AsyncHtodSpill

/-! ### The search

The slot that a search returns is one of the available slots, and the search leaves alone every slot
that is not. -/

section Scan

variable {context : CUcontext} {slotBytes pass k n i : ℕ} {passes : List ℕ}
  {answers : ℕ → AsyncHtodSlot.PrepareAnswers} {rounds : ℕ → ℕ → AsyncHtodSlot.PrepareAnswers}
  {slots : List AsyncHtodSlot} {slot : AsyncHtodSlot} {e : StagingShared}

variable (context slotBytes pass k answers) in
theorem scanPass_sound (hslots : ∀ slot ∈ slots, slot.Sound) (he : e.UsesProven) :
    (∀ slot ∈ (scanPass context slotBytes answers pass k slots e).2.1, slot.Sound) ∧
      (scanPass context slotBytes answers pass k slots e).2.2.UsesProven := by
  induction slots generalizing k e with
  | nil => exact ⟨hslots, he⟩
  | cons slot slots ih =>
    obtain ⟨hslot, hrest⟩ := List.forall_mem_cons.mp hslots
    rw [scanPass]
    split_ifs with hcandidate
    · have havailable :=
        AsyncHtodSlot.state_prepare (e := e) context slotBytes hcandidate.1 (answers k)
      obtain ⟨hprepared, huses⟩ := hslot.prepare context slotBytes hcandidate.1 he (answers k)
      simp only
      split_ifs
      · exact ⟨List.forall_mem_cons.mpr ⟨hprepared, hrest⟩,
          huses.handOut (hprepared.idle havailable)⟩
      · obtain ⟨hleft, hused⟩ := ih (k + 1) hrest huses
        exact ⟨List.forall_mem_cons.mpr ⟨hprepared, hleft⟩, hused⟩
    · obtain ⟨hleft, hused⟩ := ih (k + 1) hrest he
      exact ⟨List.forall_mem_cons.mpr ⟨hslot, hleft⟩, hused⟩

variable (context slotBytes passes rounds) in
theorem scanPasses_sound (hslots : ∀ slot ∈ slots, slot.Sound) (he : e.UsesProven) :
    (∀ slot ∈ (scanPasses context slotBytes rounds passes slots e).2.1, slot.Sound) ∧
      (scanPasses context slotBytes rounds passes slots e).2.2.UsesProven := by
  induction passes generalizing slots e with
  | nil => exact ⟨hslots, he⟩
  | cons pass passes ih =>
    obtain ⟨hleft, hused⟩ := scanPass_sound context slotBytes pass 0 (rounds pass) hslots he
    rw [scanPasses]
    split_ifs
    · exact ⟨hleft, hused⟩
    · exact ih hleft hused

theorem scanPass_found (h : (scanPass context slotBytes answers pass k slots e).1 = some n) :
    ∃ j slot, n = k + j ∧ slot.state = .available ∧
      (scanPass context slotBytes answers pass k slots e).2.1[j]? = some slot := by
  induction slots generalizing k e with
  | nil => exact absurd h (by simp [scanPass])
  | cons slot slots ih =>
    rw [scanPass] at h ⊢
    split_ifs at h ⊢ with hcandidate
    · simp only at h ⊢
      split_ifs at h ⊢
      · obtain rfl := Option.some.inj h
        exact ⟨0, _, rfl, AsyncHtodSlot.state_prepare context slotBytes hcandidate.1 (answers k),
          rfl⟩
      · obtain ⟨j, slot', rfl, hstate, hslot'⟩ := ih h
        exact ⟨j + 1, slot', by omega, hstate, hslot'⟩
    · obtain ⟨j, slot', rfl, hstate, hslot'⟩ := ih h
      exact ⟨j + 1, slot', by omega, hstate, hslot'⟩

theorem scanPasses_found (h : (scanPasses context slotBytes rounds passes slots e).1 = some n) :
    ∃ slot, slot.state = .available ∧
      (scanPasses context slotBytes rounds passes slots e).2.1[n]? = some slot := by
  induction passes generalizing slots e with
  | nil => exact absurd h (by simp [scanPasses])
  | cons pass passes ih =>
    rw [scanPasses] at h ⊢
    split_ifs at h ⊢
    · obtain ⟨j, slot, rfl, hstate, hslot⟩ := scanPass_found h
      exact ⟨slot, hstate, by rw [Nat.zero_add]; exact hslot⟩
    · exact ih h

variable (context slotBytes pass k answers e) in
theorem scanPass_of_ne (hslot : slots[i]? = some slot) (hstate : slot.state ≠ .available) :
    (scanPass context slotBytes answers pass k slots e).2.1[i]? = some slot := by
  induction slots generalizing k e i with
  | nil => exact absurd hslot (by simp)
  | cons first slots ih =>
    rw [scanPass]
    cases i with
    | zero =>
      obtain rfl : first = slot := Option.some.inj hslot
      rw [if_neg fun hcandidate ↦ hstate hcandidate.1]
      rfl
    | succ i =>
      split_ifs
      · simp only
        split_ifs
        · exact hslot
        · exact ih _ _ hslot
      · exact ih _ _ hslot

variable (context slotBytes passes rounds e) in
theorem scanPasses_of_ne (hslot : slots[i]? = some slot) (hstate : slot.state ≠ .available) :
    (scanPasses context slotBytes rounds passes slots e).2.1[i]? = some slot := by
  induction passes generalizing slots e with
  | nil => exact hslot
  | cons pass passes ih =>
    have hleft := scanPass_of_ne context slotBytes pass 0 (rounds pass) e hslot hstate
    rw [scanPasses]
    split_ifs
    · exact hleft
    · exact ih _ hleft

end Scan

/-! ## The invariant

The stage of the operation says which slot and which spill it works on, and that its slot is
available. -/

namespace HtodStage

def busySlot : HtodStage → Option ℕ
  | .acquired i | .reading i | .filled i | .copied i _ => some i
  | _ => none

/-- The slot from which a copy was submitted that is not published yet. -/
def submittedSlot : HtodStage → Option ℕ
  | .copied i _ => some i
  | _ => none

def currentSpill : HtodStage → Option AsyncHtodSpill
  | .spilling spill | .spillReading spill | .spillFilled spill | .spillFailed spill => some spill
  | _ => none

end HtodStage

namespace AsyncStaging

/-- What the stage of the active operation says. -/
def atStage {β : Type} (st : AsyncStaging) (f : HtodStage → Option β) : Option β :=
  st.operation.bind fun operation ↦ f operation.stage

/-- **Between two operations.** All slots and spills are sound, and all uses were proven. -/
structure Sound (st : AsyncStaging) : Prop where
  slots : ∀ slot ∈ st.slots, slot.Sound
  spills : ∀ spill ∈ st.spills, spill.Sound
  uses : st.shared.UsesProven

/-- **The invariant.** All slots are sound but the one whose copy is not published, the slot of the
operation is available, and the spill of the operation has no recorded event. -/
structure Inv (st : AsyncStaging) : Prop where
  slot : ∀ i slot, st.slots[i]? = some slot → st.atStage HtodStage.submittedSlot ≠ some i →
    slot.Sound
  spills : ∀ spill ∈ st.spills, spill.Sound
  uses : st.shared.UsesProven
  busy : ∀ i, st.atStage HtodStage.busySlot = some i →
    ∃ slot, st.slots[i]? = some slot ∧ slot.state = .available
  current : ∀ spill, st.atStage HtodStage.currentSpill = some spill →
    spill.Sound ∧ spill.completionRecorded = false

variable {st : AsyncStaging} {context : CUcontext}

/-! ### The sweeps

A sweep over the slots and then the spills is sound when every visit is. -/

theorem Sound.of_visits {g : ℕ → AsyncHtodSlot → StagingShared → AsyncHtodSlot × StagingShared}
    {f : ℕ → AsyncHtodSpill → StagingShared → Option AsyncHtodSpill × StagingShared}
    (h : st.Sound)
    (hg : ∀ i (slot : AsyncHtodSlot) (e : StagingShared), slot.Sound → e.UsesProven →
      (g i slot e).1.Sound ∧ (g i slot e).2.UsesProven)
    (hf : ∀ i (spill : AsyncHtodSpill) (e : StagingShared), spill.Sound → e.UsesProven →
      (∀ left, (f i spill e).1 = some left → left.Sound) ∧ (f i spill e).2.UsesProven) :
    Sound { st with
      slots := (rewriteAll g 0 st.slots st.shared).1
      spills := (sweep f 0 st.spills (rewriteAll g 0 st.slots st.shared).2).1
      shared := (sweep f 0 st.spills (rewriteAll g 0 st.slots st.shared).2).2 } := by
  obtain ⟨hslots, hmid⟩ := rewriteAll_invariant (I := StagingShared.UsesProven) (g := g) (k := 0)
    (fun i slot hslot e he ↦ hg i slot e (h.slots slot hslot) he) h.uses
  obtain ⟨hspills, huses⟩ := sweep_invariant (I := StagingShared.UsesProven) (f := f) (k := 0)
    (fun i spill hspill e he ↦ hf i spill e (h.spills spill hspill) he) hmid
  exact ⟨hslots, hspills, huses⟩

variable (context) in
theorem Sound.reclaim (h : st.Sound) (cuda : SweepAnswers) : (st.reclaim context cuda).Sound :=
  h.of_visits (fun _ _ _ hslot he ↦ hslot.reclaim he _)
    fun _ _ _ hspill he ↦ hspill.reclaim he _ _

variable (context) in
theorem Sound.retireContext (h : st.Sound) (cuda : SweepAnswers) :
    (st.retireContext context cuda).Sound := by
  rw [AsyncStaging.retireContext]
  split_ifs
  · exact h
  · exact h.of_visits (fun _ _ _ hslot he ↦ hslot.retire he _ _)
      fun _ _ _ hspill he ↦ hspill.retire he _ _

variable (context) in
theorem Sound.forgetContext (h : st.Sound) : (st.forgetContext context).Sound :=
  h.of_visits (fun _ _ _ hslot he ↦ hslot.forget he) fun _ _ _ hspill he ↦ hspill.forget he

variable (context) in
theorem Sound.acquireSlot (h : st.Sound) (cuda : SweepAnswers)
    (answers : ℕ → ℕ → AsyncHtodSlot.PrepareAnswers) :
    (st.acquireSlot context cuda answers).2.Sound := by
  have hswept := h.reclaim context cuda
  obtain ⟨hslots, huses⟩ := scanPasses_sound context asyncHtodSlotBytes [0, 1, 2] answers
    hswept.slots hswept.uses
  exact ⟨hslots, hswept.spills, huses⟩

/-! ### The operation

An operation may be at any stage whose slot is available and whose spill is not published. When its
slot becomes sound, all are. -/

section Operation

variable {stage : HtodStage} {i : ℕ}

theorem atStage_of (hop : st.operation = some ⟨context, stage⟩) {β : Type}
    (f : HtodStage → Option β) : st.atStage f = f stage := by
  rw [atStage, hop, Option.bind_some]

theorem atStage_of_none (hop : st.operation = none) {β : Type} (f : HtodStage → Option β) :
    st.atStage f = none := by
  rw [atStage, hop, Option.bind_none]

variable (context) in
theorem operation_retireContext (cuda : SweepAnswers) :
    (st.retireContext context cuda).operation = st.operation := by
  rw [retireContext]
  split_ifs <;> rfl

theorem Sound.inv (h : st.Sound) (hbusy : st.atStage HtodStage.busySlot = none)
    (hcurrent : st.atStage HtodStage.currentSpill = none) : st.Inv :=
  ⟨fun _ slot hslot _ ↦ h.slots slot (List.mem_of_getElem? hslot), h.spills, h.uses,
    fun _ hi ↦ absurd (hbusy.symm.trans hi) (by simp),
    fun _ hspill ↦ absurd (hcurrent.symm.trans hspill) (by simp)⟩

theorem Sound.finish (h : st.Sound) : st.finish.Inv :=
  Sound.inv ⟨h.slots, h.spills, h.uses⟩ rfl rfl

theorem Sound.goTo_choosing (h : st.Sound) : (st.goTo context .choosing).Inv :=
  Sound.inv ⟨h.slots, h.spills, h.uses⟩ rfl rfl

/-- An operation may be at any stage whose slot is available and whose spill is not published. -/
theorem Sound.goTo (h : st.Sound)
    (hbusy : ∀ i, stage.busySlot = some i →
      ∃ slot, st.slots[i]? = some slot ∧ slot.state = .available)
    (hcurrent : ∀ spill, stage.currentSpill = some spill →
      spill.Sound ∧ spill.completionRecorded = false) : (st.goTo context stage).Inv :=
  ⟨fun _ slot hslot _ ↦ h.slots slot (List.mem_of_getElem? hslot), h.spills, h.uses, hbusy,
    hcurrent⟩

theorem Sound.goTo_slot (h : st.Sound)
    (hslot : ∃ slot, st.slots[i]? = some slot ∧ slot.state = .available)
    (hbusy : stage.busySlot = some i) (hcurrent : stage.currentSpill = none) :
    (st.goTo context stage).Inv := by
  refine h.goTo (fun j hj ↦ ?_) fun spill hspill ↦ absurd (hcurrent.symm.trans hspill) (by simp)
  obtain rfl : i = j := Option.some.inj (hbusy.symm.trans hj)
  exact hslot

theorem Sound.goTo_spill (h : st.Sound) {spill : AsyncHtodSpill} (hspill : spill.Sound)
    (hrecorded : spill.completionRecorded = false) (hcurrent : stage.currentSpill = some spill)
    (hbusy : stage.busySlot = none) : (st.goTo context stage).Inv := by
  refine h.goTo (fun j hj ↦ absurd (hbusy.symm.trans hj) (by simp)) fun spill' hspill' ↦ ?_
  obtain rfl : spill = spill' := Option.some.inj (hcurrent.symm.trans hspill')
  exact ⟨hspill, hrecorded⟩

/-- The only stage with an unsound slot is the one between a copy and its publication. -/
theorem Inv.sound (h : st.Inv) (hop : st.atStage HtodStage.submittedSlot = none) : st.Sound := by
  refine ⟨fun slot hslot ↦ ?_, h.spills, h.uses⟩
  obtain ⟨i, hi⟩ := List.mem_iff_getElem?.mp hslot
  exact h.slot i slot hi (by rw [hop]; simp)

theorem Inv.onWindow (h : st.Inv) (f : H2Window → H2Window) : (st.onWindow f).Inv :=
  ⟨h.slot, h.spills, h.uses, h.busy, h.current⟩

theorem Sound.onWindow (h : st.Sound) (f : H2Window → H2Window) : (st.onWindow f).Sound :=
  ⟨h.slots, h.spills, h.uses⟩

theorem onSlot_eq {slot : AsyncHtodSlot} (hslot : st.slots[i]? = some slot)
    (f : AsyncHtodSlot → StagingShared → AsyncHtodSlot × StagingShared) :
    st.onSlot i f = { st with
      slots := st.slots.set i (f slot st.shared).1, shared := (f slot st.shared).2 } := by
  rw [onSlot, hslot]

theorem getElem?_set_eq_some {α : Type*} {l : List α} {j : ℕ} {a b : α}
    (h : (l.set i a)[j]? = some b) : j = i ∧ b = a ∨ j ≠ i ∧ l[j]? = some b := by
  rcases eq_or_ne i j with rfl | hne
  · refine Or.inl ⟨rfl, ?_⟩
    rw [List.getElem?_set_self'] at h
    obtain ⟨-, -, rfl⟩ := Option.map_eq_some_iff.mp h
    rfl
  · rw [List.getElem?_set_ne hne] at h
    exact Or.inr ⟨hne.symm, h⟩

theorem Inv.sound_onSlot (h : st.Inv) (hop : st.operation = some ⟨context, stage⟩)
    (hbusy : stage.busySlot = some i) (hsubmitted : ∀ j, stage.submittedSlot = some j → j = i)
    {f : AsyncHtodSlot → StagingShared → AsyncHtodSlot × StagingShared}
    (hf : ∀ slot, slot.state = .available → (stage.submittedSlot = none → slot.Sound) →
      (f slot st.shared).1.Sound ∧ (f slot st.shared).2.UsesProven) : (st.onSlot i f).Sound := by
  obtain ⟨slot, hslot, hstate⟩ := h.busy i ((atStage_of hop _).trans hbusy)
  have hsound : stage.submittedSlot = none → slot.Sound := by
    intro hnone
    exact h.slot i slot hslot (by rw [atStage_of hop, hnone]; simp)
  obtain ⟨hleft, huses⟩ := hf slot hstate hsound
  rw [onSlot_eq hslot]
  refine ⟨fun other hother ↦ ?_, h.spills, huses⟩
  obtain ⟨j, hj⟩ := List.mem_iff_getElem?.mp hother
  rcases getElem?_set_eq_some hj with ⟨-, rfl⟩ | ⟨hne, hj⟩
  · exact hleft
  · refine h.slot j other hj fun heq ↦ hne (hsubmitted j ?_)
    rw [← heq, atStage_of hop]

theorem exists_slot_onSlot {slot : AsyncHtodSlot} (hslot : st.slots[i]? = some slot)
    {f : AsyncHtodSlot → StagingShared → AsyncHtodSlot × StagingShared}
    (hf : (f slot st.shared).1.state = .available) :
    ∃ slot, (st.onSlot i f).slots[i]? = some slot ∧ slot.state = .available := by
  rw [onSlot_eq hslot]
  refine ⟨(f slot st.shared).1, ?_, hf⟩
  rw [List.getElem?_set_self', hslot]
  rfl

end Operation

/-! ### Steps

The slot that a copy is submitted from is no longer sound, whatever the call returned; a spill that
copies were submitted from joins the others when it is published. -/

variable {st' : AsyncStaging}

theorem Inv.holdBegin (h : st.Inv) (hstep : st.holdBegin = some st') : st'.Inv := by
  obtain ⟨context, i, hop, rfl⟩ | ⟨context, spill, hop, rfl⟩ := holdBegin_cases hstep
  · have hsound := h.sound (atStage_of hop _)
    exact (hsound.onWindow _).goTo_slot (h.busy i (atStage_of hop _)) rfl rfl
  · have hsound := h.sound (atStage_of hop _)
    obtain ⟨hspill, hrecorded⟩ := h.current spill (atStage_of hop _)
    exact (hsound.onWindow _).goTo_spill hspill hrecorded rfl rfl

theorem Inv.holdEnd (h : st.Inv) {succeeded switched : Bool}
    (hstep : st.holdEnd succeeded switched = some st') : st'.Inv := by
  obtain ⟨context, i, hop, rfl⟩ | ⟨context, spill, filled, hop, hfilled, hstage⟩ :=
    holdEnd_cases hstep
  · have hended := h.onWindow fun window ↦ window.holdEnd.2
    have hsound := hended.sound_onSlot hop rfl
      (fun j hj ↦ absurd hj (by simp [HtodStage.submittedSlot]))
      (f := fun slot e ↦ ({ slot with
        heldWindowBytes := slot.heldWindowBytes + st.shared.window.windowHoldBytes }, e))
      fun slot _ hslot ↦ ⟨⟨(hslot rfl).idle, (hslot rfl).flying⟩, h.uses⟩
    obtain ⟨slot, hslot, hstate⟩ := hended.busy i (atStage_of hop _)
    simp only
    split_ifs
    · exact hsound.goTo_slot (exists_slot_onSlot hslot hstate) rfl rfl
    · exact hsound.finish
  · have hsound := (h.sound (atStage_of hop _)).onWindow fun window ↦ window.holdEnd.2
    obtain ⟨hspill, hrecorded⟩ := h.current spill (atStage_of hop _)
    obtain ⟨hsoundFilled, hrecordedFilled⟩ : filled.Sound ∧ filled.completionRecorded = false := by
      rw [hfilled]
      exact ⟨⟨hspill.recorded, hspill.fresh⟩, hrecorded⟩
    rcases hstage with ⟨stage, ⟨-, rfl⟩ | ⟨-, -, rfl⟩, rfl⟩ | ⟨-, hqueued, rfl⟩
    · exact hsound.goTo_spill hsoundFilled hrecordedFilled rfl rfl
    · exact hsound.goTo_spill hsoundFilled hrecordedFilled rfl rfl
    · exact Sound.finish ⟨hsound.slots, hsound.spills,
        AsyncHtodSpill.usesProven_discard (hsoundFilled.fresh hqueued) hsound.uses switched⟩

theorem Inv.copy (h : st.Inv) {result : CUresult} (hstep : st.copy result = some st') :
    st'.Inv := by
  obtain ⟨context, i, hop, rfl⟩ | ⟨context, spill, queued, stage, hop, rfl, hstage, rfl⟩ :=
    copy_cases hstep
  · have hsound := h.sound (atStage_of hop _)
    obtain ⟨slot, hslot, hstate⟩ := h.busy i (atStage_of hop _)
    rw [onSlot_eq hslot]
    -- the slot copied from is exempt until it is published
    refine ⟨fun j other hother hne ↦ ?_, h.spills, h.uses, fun j hj ↦ ?_, fun spill hspill ↦ ?_⟩
    · rcases getElem?_set_eq_some hother with ⟨rfl, -⟩ | ⟨-, hj⟩
      · exact absurd rfl hne
      · exact hsound.slots other (List.mem_of_getElem? hj)
    · obtain rfl : i = j := Option.some.inj hj
      refine ⟨{ slot with ptr := noteCall .submit slot.ptr }, ?_, hstate⟩
      show (st.slots.set i _)[i]? = _
      rw [List.getElem?_set_self', hslot]
      rfl
    · exact absurd hspill (by simp [atStage, AsyncStaging.goTo, HtodStage.currentSpill])
  · have hsound := h.sound (atStage_of hop _)
    obtain ⟨-, hrecorded⟩ := h.current spill (atStage_of hop _)
    have hqueued : AsyncHtodSpill.Sound
        { spill with ptr := noteCall .submit spill.ptr, workQueued := true } :=
      ⟨fun hrec ↦ absurd (hrecorded.symm.trans hrec) (by simp),
        fun hfresh ↦ absurd hfresh (by simp)⟩
    rcases hstage with ⟨-, rfl⟩ | ⟨-, rfl⟩
    · exact hsound.goTo_spill hqueued hrecorded rfl rfl
    · exact hsound.goTo_spill hqueued hrecorded rfl rfl

theorem Sound.publishSpill (h : st.Sound) {spill : AsyncHtodSpill}
    (hqueued : spill.workQueued = true) (result : CUresult) :
    { st with
      spills := st.spills ++ [(spill.publish st.shared result).1]
      shared := (spill.publish st.shared result).2 }.finish.Inv := by
  obtain ⟨hspill, huses⟩ := AsyncHtodSpill.sound_publish hqueued h.uses result
  refine Sound.finish ⟨h.slots, fun other hother ↦ ?_, huses⟩
  rcases List.mem_append.mp hother with hother | hother
  · exact h.spills other hother
  · rw [List.mem_singleton.mp hother]
    exact hspill

theorem Inv.publish (h : st.Inv) {result : CUresult} (hstep : st.publish result = some st') :
    st'.Inv := by
  obtain ⟨context, i, succeeded, hop, rfl⟩ | ⟨context, stage, spill, hop, hstage, hqueued, rfl⟩ :=
    publish_cases hstep
  · have hsound := h.sound_onSlot hop rfl (fun j hj ↦ (Option.some.inj hj).symm)
      (f := fun slot e ↦ slot.publish e result)
      fun slot _ _ ↦ AsyncHtodSlot.sound_publish h.uses result
    simp only
    split_ifs
    · exact hsound.goTo_choosing
    · exact hsound.finish
  · have hsound : st.Sound := by
      rcases hstage with rfl | rfl <;> exact h.sound (atStage_of hop _)
    exact hsound.publishSpill hqueued result

theorem Inv.beginSpill (h : st.Inv) {room allocated created switched : Bool}
    (hstep : st.beginSpill room allocated created switched = some st') : st'.Inv := by
  obtain ⟨context, ptr, spill, hop, hptr, rfl, hcases⟩ := beginSpill_cases hstep
  have hsound := h.sound (atStage_of hop _)
  have hidle : Idle ptr := by
    rw [hptr]
    split_ifs
    · exact idle_fresh
    · exact idle_none
  rcases hcases with ⟨-, rfl⟩ | ⟨-, -, rfl⟩ | ⟨-, -, rfl⟩
  · exact hsound.finish
  · have hstarted : AsyncStaging.Sound { st with shared := st.shared.handOut ptr } :=
        ⟨hsound.slots, hsound.spills, hsound.uses.handOut hidle⟩
    have hspill : AsyncHtodSpill.Sound (.mk ptr context (allocated && created) context false
        false 0) := ⟨fun hrec ↦ absurd hrec (by simp), fun _ ↦ hidle⟩
    exact hstarted.goTo_spill hspill rfl rfl rfl
  · refine Sound.finish ⟨hsound.slots, hsound.spills, ?_⟩
    exact AsyncHtodSpill.usesProven_discard hidle hsound.uses switched

theorem inv_init : Inv {} := by
  refine ⟨fun i slot hslot _ ↦ ?_, fun _ hspill ↦ absurd hspill List.not_mem_nil,
    fun _ huse ↦ absurd huse List.not_mem_nil, fun _ hi ↦ absurd hi (by simp [atStage]),
    fun _ hspill ↦ absurd hspill (by simp [atStage])⟩
  rw [List.eq_of_mem_replicate (List.mem_of_getElem? hslot)]
  exact AsyncHtodSlot.sound_empty

end AsyncStaging

theorem inv_stagingStep {st st' : AsyncStaging} {step : StagingStep} (h : st.Inv)
    (hstep : stagingStep st step = some st') : st'.Inv := by
  cases step with
  | begin context =>
    obtain ⟨⟨hidle, -⟩, rfl⟩ := Option.ite_some_none_eq_some.mp hstep
    -- between two operations there is no exception, so all slots are sound
    have hsound := h.sound (AsyncStaging.atStage_of_none hidle _)
    exact hsound.goTo_choosing
  | acquire cuda answers =>
    obtain ⟨context, hop, hfound⟩ := stagingStep_acquire_cases hstep
    have hsound := h.sound (AsyncStaging.atStage_of hop _)
    have hacquired := hsound.acquireSlot context cuda answers
    rcases hfound with ⟨i, hfound, rfl⟩ | ⟨-, rfl⟩
    · obtain ⟨slot, hstate, hslot⟩ := scanPasses_found hfound
      exact hacquired.goTo_slot ⟨slot, hslot, hstate⟩ rfl rfl
    · exact hacquired.inv (AsyncStaging.atStage_of hop _) (AsyncStaging.atStage_of hop _)
  | holdBegin => exact h.holdBegin hstep
  | holdEnd succeeded switched => exact h.holdEnd hstep
  | copy result => exact h.copy hstep
  | publish result => exact h.publish hstep
  | beginSpill room allocated created switched => exact h.beginSpill hstep
  | finish =>
    obtain ⟨context, hop, rfl⟩ := stagingStep_finish_cases hstep
    exact (h.sound (AsyncStaging.atStage_of hop _)).finish
  -- contexts are retired and forgotten between two operations
  | retire context cuda =>
    obtain ⟨hidle, rfl⟩ := Option.ite_some_none_eq_some.mp hstep
    have hsound := h.sound (AsyncStaging.atStage_of_none hidle _)
    have hnone := (AsyncStaging.operation_retireContext context cuda).trans hidle
    exact (hsound.retireContext context cuda).inv (AsyncStaging.atStage_of_none hnone _)
      (AsyncStaging.atStage_of_none hnone _)
  | forget context =>
    obtain ⟨hidle, rfl⟩ := Option.ite_some_none_eq_some.mp hstep
    have hsound := h.sound (AsyncStaging.atStage_of_none hidle _)
    exact (hsound.forgetContext context).inv (AsyncStaging.atStage_of_none hidle _)
      (AsyncStaging.atStage_of_none hidle _)
  | data len =>
    obtain rfl := Option.some.inj hstep
    exact h.onWindow _
  | readStaged size =>
    obtain rfl := Option.some.inj hstep
    exact h.onWindow _
  | beginNetRead capacity =>
    obtain ⟨-, rfl⟩ := Option.ite_some_none_eq_some.mp hstep
    exact h.onWindow _
  | endNetRead =>
    obtain rfl := Option.some.inj hstep
    exact h.onWindow _

/-! ## Buffers given up

Quarantined slots and spills are left as they are by all that happens, until their context is
forgotten. The operation works on an available slot, so on none of them. -/

/-- A spill whose copies have no recorded event. -/
def AsyncHtodSpill.Quarantined (spill : AsyncHtodSpill) : Prop :=
  spill.workQueued ∧ spill.completionRecorded = false

section Quarantine

variable {slot : AsyncHtodSlot} {spill : AsyncHtodSpill} {e : StagingShared} {context : CUcontext}

theorem AsyncHtodSlot.reclaim_quarantined (hstate : slot.state = .quarantined)
    (result : CUresult) : (slot.reclaim e context result).1 = slot := by
  rw [AsyncHtodSlot.reclaim, if_pos (Or.inl (by rw [hstate]; simp))]

theorem AsyncHtodSlot.retire_quarantined (hstate : slot.state = .quarantined) (result : CUresult)
    (switched : Bool) : (slot.retire e context result switched).1 = slot := by
  rw [AsyncHtodSlot.retire]
  split_ifs
  · rfl
  · simp only [hstate]

theorem AsyncHtodSlot.forget_other (hallocation : slot.allocationContext ≠ context)
    (hevent : slot.eventContext ≠ context) : (slot.forget e context).1 = slot := by
  rw [AsyncHtodSlot.forget, if_neg (not_or.mpr ⟨hallocation, hevent⟩)]

theorem AsyncHtodSpill.reclaim_quarantined (h : spill.Quarantined) (result : CUresult)
    (switched : Bool) : (spill.reclaim e context result switched).1 = some spill := by
  rw [AsyncHtodSpill.reclaim, if_pos (Or.inl h.2)]

theorem AsyncHtodSpill.retire_quarantined (h : spill.Quarantined) (result : CUresult)
    (switched : Bool) : (spill.retire e context result switched).1 = some spill := by
  rw [AsyncHtodSpill.retire]
  split_ifs with hother hfresh
  · rfl
  · exact absurd (h.1.symm.trans hfresh) (by simp)
  · rfl
  · exact absurd h.2 ‹_›

theorem AsyncHtodSpill.forget_other (hallocation : spill.allocationContext ≠ context)
    (hevent : spill.eventContext ≠ context) : (spill.forget e context).1 = some spill := by
  rw [AsyncHtodSpill.forget, if_pos ⟨hallocation, hevent⟩]

end Quarantine

namespace AsyncStaging

variable {st st' : AsyncStaging} {context : CUcontext} {stage : HtodStage} {i : ℕ}

/-- Every quarantined slot and spill that is not one of a forgotten context is left as it is. -/
structure Keeps (st st' : AsyncStaging) (forgotten : CUcontext → Prop) : Prop where
  slot : ∀ (i : ℕ) (slot : AsyncHtodSlot), st.slots[i]? = some slot → slot.state = .quarantined →
    ¬ forgotten slot.allocationContext → ¬ forgotten slot.eventContext → st'.slots[i]? = some slot
  spill : ∀ spill ∈ st.spills, spill.Quarantined → ¬ forgotten spill.allocationContext →
    ¬ forgotten spill.eventContext → spill ∈ st'.spills

variable {forgotten : CUcontext → Prop}

theorem keeps_of_eq (hslots : st'.slots = st.slots) (hspills : st'.spills = st.spills) :
    Keeps st st' forgotten := by
  refine ⟨fun i slot hslot _ _ _ ↦ ?_, fun spill hspill _ _ _ ↦ ?_⟩
  · rw [hslots]
    exact hslot
  · rw [hspills]
    exact hspill

theorem keeps_reclaim (cuda : SweepAnswers) : Keeps st (st.reclaim context cuda) forgotten :=
  ⟨fun _ _ hslot hstate _ _ ↦ getElem?_rewriteAll_of_fixed hslot fun _ _ ↦
      AsyncHtodSlot.reclaim_quarantined hstate _,
    fun _ hspill hquarantined _ _ ↦ mem_sweep_of_fixed hspill fun _ _ ↦
      AsyncHtodSpill.reclaim_quarantined hquarantined _ _⟩

theorem keeps_acquireSlot (cuda : SweepAnswers) (answers : ℕ → ℕ → AsyncHtodSlot.PrepareAnswers) :
    Keeps st (st.acquireSlot context cuda answers).2 forgotten := by
  have hswept : Keeps st (st.reclaim context cuda) forgotten := keeps_reclaim cuda
  obtain ⟨hslots, hspills⟩ := hswept
  refine ⟨fun i slot hslot hstate hallocation hevent ↦ ?_, hspills⟩
  exact scanPasses_of_ne context asyncHtodSlotBytes [0, 1, 2] answers _
    (hslots i slot hslot hstate hallocation hevent) (by rw [hstate]; simp)

theorem keeps_retireContext (cuda : SweepAnswers) :
    Keeps st (st.retireContext context cuda) forgotten := by
  rw [retireContext]
  split_ifs
  · exact keeps_of_eq rfl rfl
  · exact ⟨fun _ _ hslot hstate _ _ ↦ getElem?_rewriteAll_of_fixed hslot fun _ _ ↦
        AsyncHtodSlot.retire_quarantined hstate _ _,
      fun _ hspill hquarantined _ _ ↦ mem_sweep_of_fixed hspill fun _ _ ↦
        AsyncHtodSpill.retire_quarantined hquarantined _ _⟩

theorem keeps_forgetContext (hforgotten : forgotten context) :
    Keeps st (st.forgetContext context) forgotten := by
  have hne : ∀ {other}, ¬ forgotten other → other ≠ context := by
    rintro other hother rfl
    exact hother hforgotten
  exact ⟨fun _ _ hslot _ hallocation hevent ↦ getElem?_rewriteAll_of_fixed hslot fun _ _ ↦
      AsyncHtodSlot.forget_other (hne hallocation) (hne hevent),
    fun _ hspill _ hallocation hevent ↦ mem_sweep_of_fixed hspill fun _ _ ↦
      AsyncHtodSpill.forget_other (hne hallocation) (hne hevent)⟩

variable (forgotten) in
theorem Inv.keeps_onSlot (h : st.Inv) (hop : st.operation = some ⟨context, stage⟩)
    (hbusy : stage.busySlot = some i)
    (f : AsyncHtodSlot → StagingShared → AsyncHtodSlot × StagingShared) :
    Keeps st (st.onSlot i f) forgotten := by
  obtain ⟨busy, hbusySlot, havailable⟩ := h.busy i ((atStage_of hop _).trans hbusy)
  rw [onSlot_eq hbusySlot]
  refine ⟨fun j slot hslot hstate _ _ ↦ ?_, fun spill hspill _ _ _ ↦ hspill⟩
  have hne : i ≠ j := by
    rintro rfl
    obtain rfl := Option.some.inj (hbusySlot.symm.trans hslot)
    exact absurd (havailable.symm.trans hstate) (by simp)
  show (st.slots.set i _)[j]? = some slot
  rw [List.getElem?_set_ne hne]
  exact hslot

theorem keeps_holdBegin (hstep : st.holdBegin = some st') : Keeps st st' forgotten := by
  obtain ⟨-, -, -, rfl⟩ | ⟨-, -, -, rfl⟩ := holdBegin_cases hstep
  · exact keeps_of_eq rfl rfl
  · exact keeps_of_eq rfl rfl

theorem Inv.keeps_holdEnd (h : st.Inv) {succeeded switched : Bool}
    (hstep : st.holdEnd succeeded switched = some st') : Keeps st st' forgotten := by
  obtain ⟨context, i, hop, rfl⟩ | ⟨-, -, -, -, -, ⟨-, -, rfl⟩ | ⟨-, -, rfl⟩⟩ := holdEnd_cases hstep
  · obtain ⟨hslots, hspills⟩ := (h.onWindow fun window ↦ window.holdEnd.2).keeps_onSlot
      forgotten hop rfl
      fun slot e ↦ ({ slot with
        heldWindowBytes := slot.heldWindowBytes + st.shared.window.windowHoldBytes }, e)
    simp only
    split_ifs <;> exact ⟨hslots, hspills⟩
  · exact keeps_of_eq rfl rfl
  · exact keeps_of_eq rfl rfl

theorem Inv.keeps_copy (h : st.Inv) {result : CUresult} (hstep : st.copy result = some st') :
    Keeps st st' forgotten := by
  obtain ⟨context, i, hop, rfl⟩ | ⟨-, -, -, -, -, -, -, rfl⟩ := copy_cases hstep
  · obtain ⟨hslots, hspills⟩ := h.keeps_onSlot forgotten hop rfl
      fun slot e ↦ ({ slot with ptr := noteCall .submit slot.ptr }, e)
    exact ⟨hslots, hspills⟩
  · exact keeps_of_eq rfl rfl

theorem Inv.keeps_publish (h : st.Inv) {result : CUresult}
    (hstep : st.publish result = some st') : Keeps st st' forgotten := by
  obtain ⟨context, i, succeeded, hop, rfl⟩ | ⟨-, -, -, -, -, -, rfl⟩ := publish_cases hstep
  · obtain ⟨hslots, hspills⟩ := h.keeps_onSlot forgotten hop rfl
      fun slot e ↦ slot.publish e result
    simp only
    split_ifs <;> exact ⟨hslots, hspills⟩
  · exact ⟨fun _ _ hslot _ _ _ ↦ hslot, fun _ hspill _ _ _ ↦ List.mem_append_left _ hspill⟩

theorem keeps_beginSpill {room allocated created switched : Bool}
    (hstep : st.beginSpill room allocated created switched = some st') :
    Keeps st st' forgotten := by
  obtain ⟨-, -, -, -, -, -, ⟨-, rfl⟩ | ⟨-, -, rfl⟩ | ⟨-, -, rfl⟩⟩ := beginSpill_cases hstep
  · exact keeps_of_eq rfl rfl
  · exact keeps_of_eq rfl rfl
  · exact keeps_of_eq rfl rfl

end AsyncStaging

/-- Only the forgetting of its context touches a quarantined slot or spill. -/
theorem keeps_stagingStep {st st' : AsyncStaging} {step : StagingStep} (h : st.Inv)
    (hstep : stagingStep st step = some st') :
    AsyncStaging.Keeps st st' fun context ↦ step = .forget context := by
  cases step with
  | begin context =>
    obtain ⟨-, rfl⟩ := Option.ite_some_none_eq_some.mp hstep
    exact AsyncStaging.keeps_of_eq rfl rfl
  | acquire cuda answers =>
    obtain ⟨context, -, hfound⟩ := stagingStep_acquire_cases hstep
    obtain ⟨hslots, hspills⟩ : AsyncStaging.Keeps st (st.acquireSlot context cuda answers).2
      fun context ↦ StagingStep.acquire cuda answers = .forget context :=
        AsyncStaging.keeps_acquireSlot cuda answers
    rcases hfound with ⟨-, -, rfl⟩ | ⟨-, rfl⟩
    · exact ⟨hslots, hspills⟩
    · exact ⟨hslots, hspills⟩
  | holdBegin => exact AsyncStaging.keeps_holdBegin hstep
  | holdEnd succeeded switched => exact h.keeps_holdEnd hstep
  | copy result => exact h.keeps_copy hstep
  | publish result => exact h.keeps_publish hstep
  | beginSpill room allocated created switched => exact AsyncStaging.keeps_beginSpill hstep
  | finish =>
    obtain ⟨-, -, rfl⟩ := stagingStep_finish_cases hstep
    exact AsyncStaging.keeps_of_eq rfl rfl
  | retire context cuda =>
    obtain ⟨-, rfl⟩ := Option.ite_some_none_eq_some.mp hstep
    exact AsyncStaging.keeps_retireContext cuda
  | forget context =>
    obtain ⟨-, rfl⟩ := Option.ite_some_none_eq_some.mp hstep
    exact AsyncStaging.keeps_forgetContext rfl
  | data len =>
    obtain rfl := Option.some.inj hstep
    exact AsyncStaging.keeps_of_eq rfl rfl
  | readStaged size =>
    obtain rfl := Option.some.inj hstep
    exact AsyncStaging.keeps_of_eq rfl rfl
  | beginNetRead capacity =>
    obtain ⟨-, rfl⟩ := Option.ite_some_none_eq_some.mp hstep
    exact AsyncStaging.keeps_of_eq rfl rfl
  | endNetRead =>
    obtain rfl := Option.some.inj hstep
    exact AsyncStaging.keeps_of_eq rfl rfl

/-! ## Runs of the staging -/

variable {st st' : AsyncStaging} {steps : List StagingStep}

theorem inv_run (h : st.Inv) (hrun : stagingMachine.run st steps = some st') : st'.Inv :=
  stagingMachine.run_invariant (fun _ _ _ hst hstep ↦ inv_stagingStep hst hstep) h hrun

theorem keeps_run (h : st.Inv) (hrun : stagingMachine.run st steps = some st') :
    AsyncStaging.Keeps st st' fun context ↦ .forget context ∈ steps := by
  induction steps generalizing st with
  | nil =>
    obtain rfl := Option.some.inj hrun
    exact AsyncStaging.keeps_of_eq rfl rfl
  | cons step steps ih =>
    rw [Machine.run_cons] at hrun
    obtain ⟨next, hstep, hrun⟩ := Option.bind_eq_some_iff.mp hrun
    obtain ⟨hslot, hspill⟩ := keeps_stagingStep h hstep
    obtain ⟨hslots, hspills⟩ := ih (inv_stagingStep h hstep) hrun
    -- a context that no step forgets is forgotten neither now nor later
    have hnow : ∀ {context}, .forget context ∉ step :: steps → step ≠ .forget context :=
      fun hnot heq ↦ hnot (heq ▸ List.mem_cons_self)
    have hlater : ∀ {context}, .forget context ∉ step :: steps → .forget context ∉ steps :=
      fun hnot hmem ↦ hnot (List.mem_cons_of_mem _ hmem)
    refine ⟨fun i slot hat hstate hallocation hevent ↦ ?_,
      fun spill hat hquarantined hallocation hevent ↦ ?_⟩
    · have hnext := hslot i slot hat hstate (hnow hallocation) (hnow hevent)
      exact hslots i slot hnext hstate (hlater hallocation) (hlater hevent)
    · have hnext := hspill spill hat hquarantined (hnow hallocation) (hnow hevent)
      exact hspills spill hnext hquarantined (hlater hallocation) (hlater hevent)

/-- **Staging buffers are used again only when they are proven idle.** In every run, with every
result of the driver, a buffer is handed out or freed only when no copy was ever submitted from it,
or none since a recorded event behind all its copies was seen to be complete. A buffer that is in
doubt and not in the hands of the operation waits for a recorded event or is quarantined, and a
quarantined one is left as it is until its context is forgotten. -/
theorem stagingBuffers_proven (hrun : stagingMachine.run {} steps = some st) :
    (∀ use ∈ st.shared.uses, .submit ∉ use.calls ∨ ∃ newer older : BufferHistory,
        use.calls = newer ++ .poll .reached :: older ∧ older.marked ∧ .submit ∉ newer) ∧
      (∀ i slot calls, st.slots[i]? = some slot → slot.ptr = some calls → calls.inDoubt →
        st.atStage HtodStage.submittedSlot = some i ∨
          slot.state = .inFlight ∧ calls.marked ∨ slot.state = .quarantined) ∧
      (∀ spill ∈ st.spills, ∀ calls, spill.ptr = some calls → calls.inDoubt →
        spill.completionRecorded ∧ calls.marked ∨ spill.Quarantined) ∧
      ∀ more st', stagingMachine.run st more = some st' →
        AsyncStaging.Keeps st st' fun context ↦ .forget context ∈ more := by
  have hinv := inv_run AsyncStaging.inv_init hrun
  refine ⟨fun use huse ↦ BufferHistory.inDoubt_eq_false_iff.mp (hinv.uses use huse),
    fun i slot calls hslot hptr hdoubt ↦ ?_, fun spill hspill calls hptr hdoubt ↦ ?_,
    fun more st' hmore ↦ keeps_run hinv hmore⟩
  · rcases eq_or_ne (st.atStage HtodStage.submittedSlot) (some i) with hsubmitted | hsubmitted
    · exact Or.inl hsubmitted
    · have hsound := hinv.slot i slot hslot hsubmitted
      cases hstate : slot.state with
      | available =>
        have hidle := hsound.idle hstate calls hptr
        exact absurd (hdoubt.symm.trans hidle) (by simp)
      | inFlight => exact Or.inr (Or.inl ⟨rfl, hsound.flying hstate calls hptr⟩)
      | quarantined => exact Or.inr (Or.inr rfl)
  · have hsound := hinv.spills spill hspill
    have hqueued : spill.workQueued := by
      by_contra hfresh
      have hidle := hsound.fresh ((Bool.not_eq_true _).mp hfresh) calls hptr
      exact absurd (hdoubt.symm.trans hidle) (by simp)
    cases hrecorded : spill.completionRecorded with
    | true => exact Or.inl ⟨rfl, (hsound.recorded hrecorded).2 calls hptr⟩
    | false => exact Or.inr ⟨hqueued, hrecorded⟩

/-- Every query answers the same, and a slot can be prepared or not. -/
def uniformAnswers (query : CUresult) : SweepAnswers :=
  ⟨fun _ ↦ query, fun _ ↦ true, fun _ ↦ query, fun _ ↦ true⟩

/-- A slot is filled, copied from and filled again when its copy is complete. The event of its
second copy cannot be recorded. The next payload finds no slot that can be prepared and goes into a
spill, which is freed when the context is retired; another context is forgotten. -/
def ringThenSpill : List StagingStep :=
  [.begin 1, .acquire (uniformAnswers .errorNotReady) fun _ _ ↦ ⟨true, true, true⟩, .holdBegin,
    .data 100, .holdEnd true true, .copy .success, .publish .success,
    .acquire (uniformAnswers .success) fun _ _ ↦ ⟨true, true, true⟩, .holdBegin, .data 50,
    .holdEnd true true, .copy .success, .publish (.error 1), .begin 1,
    .acquire (uniformAnswers .success) fun _ _ ↦ ⟨true, false, false⟩,
    .beginSpill true true true true, .holdBegin, .data 10, .holdEnd true true, .copy .success,
    .publish .success, .retire 1 (uniformAnswers .success), .forget 2]

theorem stagingBuffers_proven_ringThenSpill :
    ∃ st, stagingMachine.run {} ringThenSpill = some st ∧
      (∀ use ∈ st.shared.uses, .submit ∉ use.calls ∨ ∃ newer older : BufferHistory,
        use.calls = newer ++ .poll .reached :: older ∧ older.marked ∧ .submit ∉ newer) ∧
      st.shared.uses.length = 4 ∧
      st.slots.map (·.state) = [.quarantined, .available, .available, .available] := by
  have hrun : (stagingMachine.run {} ringThenSpill).map
      (fun st ↦ (st.shared.uses.length, st.slots.map (·.state)))
        = some (4, [.quarantined, .available, .available, .available]) := by decide +kernel
  obtain ⟨st, hst, hview⟩ := Option.map_eq_some_iff.mp hrun
  obtain ⟨huses, hstates⟩ := Prod.mk.inj hview
  exact ⟨st, hst, (stagingBuffers_proven hst).1, huses, hstates⟩

end Lupine
