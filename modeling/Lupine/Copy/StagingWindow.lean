import Lupine.Copy.StagingReuse

/-!
# The window behind the staging

Bytes read into a staging buffer are held back from the peer's window until the buffer is retired.
Every byte held is charged to one slot, one spill or the hold in progress, and a buffer that is no
longer tracked gives its bytes back: when its copy is complete, when it is quarantined, discarded or
freed, and when its context is forgotten. One path gives nothing back. A slot whose payload could
not be read stays available with the bytes charged to it, and they are lost when the slot is reset
for another context.

## The balance

The bytes held back are at any time the sum of what is charged to slots, to spills and to the hold
in progress. A sweep over the slots spends what it takes from each of them, so it releases the
difference of the sums before and after; a search visits available slots only, which are charged
with nothing, and releases nothing. The steps of an operation move bytes between the three sums.
-/

namespace Lupine

open Foundation

/-! ## The bytes charged to the staging

An operation that reads into a slot has its slot in hand, and the bytes of a spill that it works on
are counted with it until the spill is published. -/

def heldBySlots (slots : List AsyncHtodSlot) : ℕ := (slots.map (·.heldWindowBytes)).sum

def heldBySpills (spills : List AsyncHtodSpill) : ℕ := (spills.map (·.heldWindowBytes)).sum

namespace HtodStage

def readingSlot : HtodStage → Option ℕ
  | .reading i => some i
  | _ => none

def reads : HtodStage → Bool
  | .reading _ | .spillReading _ => true
  | _ => false

/-- The bytes charged to the spill of the operation. -/
def heldBytes : HtodStage → ℕ
  | .spilling spill | .spillReading spill | .spillFilled spill | .spillFailed spill =>
    spill.heldWindowBytes
  | _ => 0

end HtodStage

namespace AsyncStaging

/-- The bytes charged to the spill of the active operation. -/
def heldByOperation (st : AsyncStaging) : ℕ :=
  st.operation.elim 0 fun operation ↦ operation.stage.heldBytes

def reads (st : AsyncStaging) : Bool :=
  st.operation.any fun operation ↦ operation.stage.reads

/-- All bytes charged to slots, spills and the hold in progress. -/
def totalHeld (st : AsyncStaging) : ℕ :=
  heldBySlots st.slots + heldBySpills st.spills + st.heldByOperation
    + st.shared.window.windowHoldBytes

end AsyncStaging

def slotReadFails (st : AsyncStaging) : StagingStep → Bool
  | .holdEnd false _ => (st.atStage HtodStage.readingSlot).isSome
  | _ => false

/-! ## Releases

`Released` is the effect of a visit on the window: so many bytes released, and nothing else. Each
visit of a slot or a spill spends exactly what is no longer charged afterwards. -/

/-- So many bytes were released, and nothing else happened to the window. -/
def Released (n : ℕ) (e e' : StagingShared) : Prop := e'.window = e.window.release n

section Released

variable {m n : ℕ} {e e₁ e₂ e₃ : StagingShared}

theorem released_zero (e : StagingShared) : Released 0 e e := H2Window.release_zero.symm

theorem Released.add (h : Released m e₁ e₂) (h' : Released n e₂ e₃) : Released (m + n) e₁ e₃ := by
  rw [Released, h', h]
  exact H2Window.release_release m n

@[simp] theorem window_asyncHtodFreeHost (ptr : Option BufferHistory) (switched : Bool) :
    (e.asyncHtodFreeHost ptr switched).window = e.window := by
  rw [StagingShared.asyncHtodFreeHost]
  split_ifs <;> rfl

theorem released_freeHost (held : ℕ) (ptr : Option BufferHistory) (switched : Bool) :
    Released held e ((e.releaseStagingWindow held).asyncHtodFreeHost ptr switched) :=
  window_asyncHtodFreeHost ptr switched

end Released

namespace AsyncHtodSlot

variable (slot : AsyncHtodSlot) (e : StagingShared) (context : CUcontext) (result : CUresult)
  (switched : Bool)

/-- An available slot is charged with nothing. -/
def Empty : Prop := slot.state = .available → slot.heldWindowBytes = 0

theorem reclaim_spends : ∃ n, slot.heldWindowBytes
    = (slot.reclaim e context result).1.heldWindowBytes + n ∧
      Released n e (slot.reclaim e context result).2 := by
  rw [reclaim]
  split_ifs
  · exact ⟨0, rfl, released_zero e⟩
  · exact ⟨slot.heldWindowBytes, (Nat.zero_add _).symm, rfl⟩
  · exact ⟨slot.heldWindowBytes, (Nat.zero_add _).symm, rfl⟩
  · exact ⟨0, rfl, released_zero e⟩

theorem drop_spends : ∃ n, slot.heldWindowBytes = (slot.drop e context switched).1.heldWindowBytes
    + n ∧ Released n e (slot.drop e context switched).2 := by
  refine ⟨slot.heldWindowBytes, ?_, ?_⟩
  all_goals rw [drop]; split_ifs
  · exact (Nat.zero_add _).symm
  · exact (Nat.zero_add _).symm
  · exact released_freeHost _ _ switched
  · rfl

theorem retire_spends : ∃ n, slot.heldWindowBytes
    = (slot.retire e context result switched).1.heldWindowBytes + n ∧
      Released n e (slot.retire e context result switched).2 := by
  rw [retire]
  split_ifs
  · exact ⟨0, rfl, released_zero e⟩
  split
  · exact slot.drop_spends e context switched
  · exact ⟨0, rfl, released_zero e⟩
  · simp only
    split_ifs
    · exact ⟨0, rfl, released_zero e⟩
    · exact ⟨slot.heldWindowBytes, (Nat.zero_add _).symm, rfl⟩
    · exact (slot.reopen _).drop_spends e context switched

theorem forget_spends : ∃ n, slot.heldWindowBytes = (slot.forget e context).1.heldWindowBytes + n ∧
    Released n e (slot.forget e context).2 := by
  rw [forget]
  split_ifs
  · exact ⟨slot.heldWindowBytes, (Nat.zero_add _).symm, rfl⟩
  · exact ⟨0, rfl, released_zero e⟩

theorem publish_spends : ∃ n, slot.heldWindowBytes = (slot.publish e result).1.heldWindowBytes + n ∧
    Released n e (slot.publish e result).2 := by
  rw [publish]
  split_ifs
  · exact ⟨0, rfl, released_zero e⟩
  · exact ⟨slot.heldWindowBytes, (Nat.zero_add _).symm, rfl⟩

theorem empty_publish : (slot.publish e result).1.Empty := by
  rw [publish]
  split_ifs
  · exact fun havailable ↦ absurd havailable (by simp)
  · exact fun _ ↦ rfl

variable {slot}

theorem Empty.reclaim (h : slot.Empty) : (slot.reclaim e context result).1.Empty := by
  rw [AsyncHtodSlot.reclaim]
  split_ifs
  · exact h
  · exact fun _ ↦ rfl
  · exact fun _ ↦ rfl
  · exact h

theorem empty_drop : (slot.drop e context switched).1.Empty := by
  rw [AsyncHtodSlot.drop]
  split_ifs <;> exact fun _ ↦ rfl

theorem Empty.retire (h : slot.Empty) : (slot.retire e context result switched).1.Empty := by
  rw [AsyncHtodSlot.retire]
  split_ifs
  · exact h
  split
  · exact empty_drop e context switched
  · exact h
  · simp only
    split_ifs
    · exact h
    · exact fun _ ↦ rfl
    · exact empty_drop e context switched

theorem Empty.forget (h : slot.Empty) : (slot.forget e context).1.Empty := by
  rw [AsyncHtodSlot.forget]
  split_ifs
  · exact fun _ ↦ rfl
  · exact h

end AsyncHtodSlot

namespace AsyncHtodSpill

variable (spill : AsyncHtodSpill) (e : StagingShared) (context : CUcontext) (result : CUresult)
  (switched : Bool)

theorem answered_spends : ∃ n, spill.heldWindowBytes
    = heldBySpills (spill.answered e result switched).1.toList + n ∧
      Released n e (spill.answered e result switched).2 := by
  rw [answered]
  split_ifs
  · exact ⟨0, by simp [heldBySpills, asked], released_zero e⟩
  · exact ⟨spill.heldWindowBytes, by simp [heldBySpills, giveUp], rfl⟩
  · exact ⟨spill.heldWindowBytes, by simp [heldBySpills], released_freeHost _ _ switched⟩

theorem reclaim_spends : ∃ n, spill.heldWindowBytes
    = heldBySpills (spill.reclaim e context result switched).1.toList + n ∧
      Released n e (spill.reclaim e context result switched).2 := by
  rw [reclaim]
  split_ifs
  · exact ⟨0, by simp [heldBySpills], released_zero e⟩
  · exact spill.answered_spends e result switched

theorem retire_spends : ∃ n, spill.heldWindowBytes
    = heldBySpills (spill.retire e context result switched).1.toList + n ∧
      Released n e (spill.retire e context result switched).2 := by
  rw [retire]
  split_ifs
  · exact ⟨0, by simp [heldBySpills], released_zero e⟩
  · exact ⟨spill.heldWindowBytes, by simp [heldBySpills], released_freeHost _ _ switched⟩
  · exact ⟨0, by simp [heldBySpills], released_zero e⟩
  · exact spill.answered_spends e _ switched

theorem forget_spends : ∃ n, spill.heldWindowBytes
    = heldBySpills (spill.forget e context).1.toList + n ∧
      Released n e (spill.forget e context).2 := by
  rw [forget]
  split_ifs
  · exact ⟨0, by simp [heldBySpills], released_zero e⟩
  · exact ⟨spill.heldWindowBytes, by simp [heldBySpills], rfl⟩

end AsyncHtodSpill

/-! ## The search for a slot releases nothing

A slot that is charged with nothing is prepared without a word to the peer. -/

section Scan

variable {context : CUcontext} {slotBytes pass k : ℕ} {passes : List ℕ}
  {answers : ℕ → AsyncHtodSlot.PrepareAnswers} {rounds : ℕ → ℕ → AsyncHtodSlot.PrepareAnswers}
  {slots : List AsyncHtodSlot} {slot : AsyncHtodSlot} {e : StagingShared}

variable (context slotBytes e) in
theorem AsyncHtodSlot.prepare_held (answer : AsyncHtodSlot.PrepareAnswers)
    (hheld : slot.heldWindowBytes = 0) :
    (slot.prepare e context slotBytes answer).2.1.heldWindowBytes = 0 ∧
      (slot.prepare e context slotBytes answer).2.2.window = e.window := by
  have hfit : (slot.fit e context slotBytes answer.switched).1.heldWindowBytes = 0 ∧
      (slot.fit e context slotBytes answer.switched).2.window = e.window := by
    rw [AsyncHtodSlot.fit]
    split_ifs
    · rw [AsyncHtodSlot.resetAvailable]
      split_ifs
      · exact ⟨hheld, rfl⟩
      · exact ⟨rfl, window_asyncHtodFreeHost _ _⟩
    · exact ⟨hheld, rfl⟩
  have hallocate : ∀ {slot : AsyncHtodSlot}, slot.heldWindowBytes = 0 →
      (slot.allocate context slotBytes answer.allocated).2.heldWindowBytes = 0 := by
    intro slot hslot
    rw [AsyncHtodSlot.allocate]
    split_ifs <;> exact hslot
  have hcreate : ∀ {slot : AsyncHtodSlot}, slot.heldWindowBytes = 0 →
      (slot.createEvent context answer.created).2.heldWindowBytes = 0 := by
    intro slot hslot
    rw [AsyncHtodSlot.createEvent]
    split_ifs <;> exact hslot
  rw [AsyncHtodSlot.prepare]
  simp only
  split_ifs
  · exact ⟨hheld, rfl⟩
  · exact ⟨hcreate (hallocate hfit.1), hfit.2⟩
  · exact ⟨hallocate hfit.1, hfit.2⟩

variable (context slotBytes pass k answers e) in
theorem scanPass_held (hempty : ∀ slot ∈ slots, slot.Empty) :
    heldBySlots (scanPass context slotBytes answers pass k slots e).2.1 = heldBySlots slots ∧
      (∀ slot ∈ (scanPass context slotBytes answers pass k slots e).2.1, slot.Empty) ∧
      (scanPass context slotBytes answers pass k slots e).2.2.window = e.window := by
  induction slots generalizing k e with
  | nil => exact ⟨rfl, hempty, rfl⟩
  | cons slot slots ih =>
    obtain ⟨hslot, hrest⟩ := List.forall_mem_cons.mp hempty
    rw [scanPass]
    split_ifs with hcandidate
    · have hheld := hslot hcandidate.1
      obtain ⟨hprepared, hwindow⟩ :=
        AsyncHtodSlot.prepare_held context slotBytes e (answers k) hheld
      have hsum : ∀ {left}, heldBySlots left = heldBySlots slots → heldBySlots
          ((slot.prepare e context slotBytes (answers k)).2.1 :: left)
            = heldBySlots (slot :: slots) := by
        intro left hleft
        rw [heldBySlots, heldBySlots, List.map_cons, List.map_cons, List.sum_cons, List.sum_cons,
          hprepared, hheld]
        exact congrArg (0 + ·) hleft
      simp only
      split_ifs
      · exact ⟨hsum rfl, List.forall_mem_cons.mpr ⟨fun _ ↦ hprepared, hrest⟩, hwindow⟩
      · obtain ⟨hleft, hleftEmpty, hleftWindow⟩ := ih (k + 1) _ hrest
        exact ⟨hsum hleft, List.forall_mem_cons.mpr ⟨fun _ ↦ hprepared, hleftEmpty⟩,
          hleftWindow.trans hwindow⟩
    · obtain ⟨hleft, hleftEmpty, hleftWindow⟩ := ih (k + 1) e hrest
      exact ⟨congrArg (slot.heldWindowBytes + ·) hleft,
        List.forall_mem_cons.mpr ⟨hslot, hleftEmpty⟩, hleftWindow⟩

variable (context slotBytes passes rounds e) in
theorem scanPasses_held (hempty : ∀ slot ∈ slots, slot.Empty) :
    heldBySlots (scanPasses context slotBytes rounds passes slots e).2.1 = heldBySlots slots ∧
      (∀ slot ∈ (scanPasses context slotBytes rounds passes slots e).2.1, slot.Empty) ∧
      (scanPasses context slotBytes rounds passes slots e).2.2.window = e.window := by
  induction passes generalizing slots e with
  | nil => exact ⟨rfl, hempty, rfl⟩
  | cons pass passes ih =>
    obtain ⟨hheld, hleft, hwindow⟩ :=
      scanPass_held context slotBytes pass 0 (rounds pass) e hempty
    rw [scanPasses]
    split_ifs
    · exact ⟨hheld, hleft, hwindow⟩
    · obtain ⟨hheld', hleft', hwindow'⟩ := ih _ hleft
      exact ⟨hheld'.trans hheld, hleft', hwindow'.trans hwindow⟩

end Scan

/-! ## The balance of the staging

A sweep keeps the balance because each of its visits spends what it takes, whatever the sweep is
for. -/

namespace AsyncStaging

/-- **The balance.** The window is balanced, every held byte is charged to a slot, a spill or the
hold in progress, an available slot that no operation fills is charged with nothing, and there is
only a hold while a payload is read. -/
structure Charged (st : AsyncStaging) : Prop where
  balanced : st.shared.window.Balanced
  held : st.shared.window.windowHeld = st.totalHeld
  empty : ∀ i slot, st.slots[i]? = some slot → st.atStage HtodStage.busySlot ≠ some i → slot.Empty
  quiet : st.reads = false →
    st.shared.window.windowHold = false ∧ st.shared.window.windowHoldBytes = 0

variable {st st' : AsyncStaging} {context : CUcontext} {stage : HtodStage} {i : ℕ}

theorem Charged.allEmpty (h : st.Charged) (hbusy : st.atStage HtodStage.busySlot = none) :
    ∀ slot ∈ st.slots, slot.Empty := by
  intro slot hslot
  obtain ⟨i, hi⟩ := List.mem_iff_getElem?.mp hslot
  exact h.empty i slot hi (by rw [hbusy]; simp)

/-- What a sweep over the slots and then the spills leaves. -/
structure Swept (st st' : AsyncStaging) : Prop where
  operation : st'.operation = st.operation
  empty : ∀ slot ∈ st'.slots, slot.Empty
  released : ∃ n, heldBySlots st.slots + heldBySpills st.spills
      = heldBySlots st'.slots + heldBySpills st'.spills + n ∧ Released n st.shared st'.shared

theorem swept_of_visits {g : ℕ → AsyncHtodSlot → StagingShared → AsyncHtodSlot × StagingShared}
    {f : ℕ → AsyncHtodSpill → StagingShared → Option AsyncHtodSpill × StagingShared}
    (hempty : ∀ slot ∈ st.slots, slot.Empty)
    (hgEmpty : ∀ i (slot : AsyncHtodSlot) e, slot.Empty → (g i slot e).1.Empty)
    (hg : ∀ i (slot : AsyncHtodSlot) e, ∃ n,
      slot.heldWindowBytes = (g i slot e).1.heldWindowBytes + n ∧ Released n e (g i slot e).2)
    (hf : ∀ i (spill : AsyncHtodSpill) e, ∃ n,
      spill.heldWindowBytes = heldBySpills (f i spill e).1.toList + n ∧
        Released n e (f i spill e).2) :
    Swept st { st with
      slots := (rewriteAll g 0 st.slots st.shared).1
      spills := (sweep f 0 st.spills (rewriteAll g 0 st.slots st.shared).2).1
      shared := (sweep f 0 st.spills (rewriteAll g 0 st.slots st.shared).2).2 } := by
  obtain ⟨hleft, -⟩ := rewriteAll_invariant (g := g) (k := 0) (s := st.shared)
    (I := fun _ ↦ True) (fun i slot hslot e _ ↦ ⟨hgEmpty i slot e (hempty slot hslot), trivial⟩)
    trivial
  obtain ⟨m, hm, hmid⟩ : ∃ m,
      heldBySlots st.slots = heldBySlots (rewriteAll g 0 st.slots st.shared).1 + m ∧
        Released m st.shared (rewriteAll g 0 st.slots st.shared).2 :=
    rewriteAll_spends released_zero Released.add fun i slot _ e ↦ hg i slot e
  generalize rewriteAll g 0 st.slots st.shared = swept at *
  obtain ⟨n, hn, hend⟩ : ∃ n, heldBySpills st.spills
      = heldBySpills (sweep f 0 st.spills swept.2).1 + n ∧
        Released n swept.2 (sweep f 0 st.spills swept.2).2 :=
    sweep_spends released_zero Released.add fun i spill _ e ↦ hf i spill e
  refine ⟨rfl, hleft, m + n, ?_, hmid.add hend⟩
  show heldBySlots st.slots + heldBySpills st.spills
    = heldBySlots swept.1 + heldBySpills (sweep f 0 st.spills swept.2).1 + (m + n)
  omega

/-- A sweep keeps the balance. -/
theorem Charged.swept (h : st.Charged) (hswept : Swept st st') : st'.Charged := by
  obtain ⟨n, hn, hreleased⟩ := hswept.released
  have hoperation : st'.heldByOperation = st.heldByOperation := by
    rw [heldByOperation, heldByOperation, hswept.operation]
  have htotal := h.held
  rw [totalHeld] at htotal
  refine ⟨?_, ?_, fun i slot hslot _ ↦ hswept.empty slot (List.mem_of_getElem? hslot),
    fun hreads ↦ ?_⟩
  · rw [hreleased]
    exact h.balanced.release (by omega)
  · rw [totalHeld, hoperation, hreleased, H2Window.windowHeld_release,
      H2Window.windowHoldBytes_release]
    omega
  · rw [reads, hswept.operation] at hreads
    rw [hreleased, H2Window.windowHold_release, H2Window.windowHoldBytes_release]
    exact h.quiet hreads

variable (context) in
theorem swept_reclaim (cuda : SweepAnswers) (hempty : ∀ slot ∈ st.slots, slot.Empty) :
    Swept st (st.reclaim context cuda) :=
  swept_of_visits hempty (fun _ _ e hslot ↦ hslot.reclaim e context _)
    (fun _ slot e ↦ slot.reclaim_spends e context _)
    fun _ spill e ↦ spill.reclaim_spends e context _ _

theorem swept_retireContext (cuda : SweepAnswers) (hempty : ∀ slot ∈ st.slots, slot.Empty) :
    Swept st (st.retireContext context cuda) := by
  rw [retireContext]
  split_ifs
  · exact ⟨rfl, hempty, 0, rfl, released_zero _⟩
  · exact swept_of_visits hempty (fun _ _ e hslot ↦ hslot.retire e context _ _)
      (fun _ slot e ↦ slot.retire_spends e context _ _)
      fun _ spill e ↦ spill.retire_spends e context _ _

theorem swept_forgetContext (hempty : ∀ slot ∈ st.slots, slot.Empty) :
    Swept st (st.forgetContext context) :=
  swept_of_visits hempty (fun _ _ e hslot ↦ hslot.forget e context)
    (fun _ slot e ↦ slot.forget_spends e context) fun _ spill e ↦ spill.forget_spends e context

variable (context) in
theorem swept_acquireSlot (cuda : SweepAnswers)
    (answers : ℕ → ℕ → AsyncHtodSlot.PrepareAnswers) (hempty : ∀ slot ∈ st.slots, slot.Empty) :
    Swept st (st.acquireSlot context cuda answers).2 := by
  obtain ⟨-, hleft, n, hn, hreleased⟩ := swept_reclaim context cuda hempty
  obtain ⟨hheld, hprepared, hwindow⟩ := scanPasses_held context asyncHtodSlotBytes [0, 1, 2] answers
    (st.reclaim context cuda).shared hleft
  refine ⟨rfl, hprepared, n, ?_, hwindow.trans hreleased⟩
  rw [hn]
  exact congrArg (· + heldBySpills (st.reclaim context cuda).spills + n) hheld.symm

/-! ### Steps of the operation

Between a read and the publication the bytes go from the hold to the slot or the spill, and from
there they stay or are released. An operation that does not read has nothing on hold. -/

theorem Charged.move (h : st.Charged) (hslots : st'.slots = st.slots)
    (hspills : st'.spills = st.spills) (hbalanced : st'.shared.window.Balanced)
    (hheld : st'.shared.window.windowHeld
        + (st.heldByOperation + st.shared.window.windowHoldBytes)
      = st.shared.window.windowHeld
        + (st'.heldByOperation + st'.shared.window.windowHoldBytes))
    (hbusy : ∀ i, st.atStage HtodStage.busySlot = some i → st'.atStage HtodStage.busySlot = some i)
    (hquiet : st'.reads = false →
      st'.shared.window.windowHold = false ∧ st'.shared.window.windowHoldBytes = 0) :
    st'.Charged := by
  refine ⟨hbalanced, ?_, fun i slot hslot hne ↦ ?_, hquiet⟩
  · have htotal := h.held
    rw [totalHeld] at htotal ⊢
    rw [hslots, hspills]
    omega
  · rw [hslots] at hslot
    exact h.empty i slot hslot fun hi ↦ hne (hbusy i hi)

theorem heldBySlots_set {slots : List AsyncHtodSlot} {slot : AsyncHtodSlot}
    (hslot : slots[i]? = some slot) (slot' : AsyncHtodSlot) :
    heldBySlots (slots.set i slot') + slot.heldWindowBytes
      = heldBySlots slots + slot'.heldWindowBytes := by
  induction slots generalizing i with
  | nil => exact absurd hslot (by simp)
  | cons first slots ih =>
    cases i with
    | zero =>
      obtain rfl : first = slot := Option.some.inj hslot
      simp only [heldBySlots, List.set_cons_zero, List.map_cons, List.sum_cons]
      omega
    | succ i =>
      have hrest := ih (i := i) hslot
      simp only [heldBySlots, List.set_cons_succ, List.map_cons, List.sum_cons] at hrest ⊢
      omega

theorem Charged.onSlot (h : st.Charged) {slot slot' : AsyncHtodSlot}
    (hbusy : st.atStage HtodStage.busySlot = some i) (hslot : st.slots[i]? = some slot)
    (hslots : st'.slots = st.slots.set i slot') (hspills : st'.spills = st.spills)
    (hbalanced : st'.shared.window.Balanced)
    (hheld : st'.shared.window.windowHeld + (slot.heldWindowBytes + st.heldByOperation
        + st.shared.window.windowHoldBytes)
      = st.shared.window.windowHeld + (slot'.heldWindowBytes + st'.heldByOperation
        + st'.shared.window.windowHoldBytes))
    (hempty : slot'.Empty ∨ st'.atStage HtodStage.busySlot = some i)
    (hquiet : st'.reads = false →
      st'.shared.window.windowHold = false ∧ st'.shared.window.windowHoldBytes = 0) :
    st'.Charged := by
  refine ⟨hbalanced, ?_, fun j other hother hne ↦ ?_, hquiet⟩
  · have htotal := h.held
    have hset := heldBySlots_set hslot slot'
    rw [totalHeld] at htotal ⊢
    rw [hslots, hspills]
    omega
  · rw [hslots] at hother
    rcases getElem?_set_eq_some hother with ⟨rfl, rfl⟩ | ⟨hji, hj⟩
    · exact hempty.resolve_right hne
    · refine h.empty j other hj fun hj ↦ hji ?_
      exact Option.some.inj (hj.symm.trans hbusy)

theorem heldBySpills_concat (spills : List AsyncHtodSpill) (spill : AsyncHtodSpill) :
    heldBySpills (spills ++ [spill]) = heldBySpills spills + spill.heldWindowBytes := by
  rw [heldBySpills, List.map_append, List.sum_append]
  rfl

theorem heldByOperation_of (hop : st.operation = some ⟨context, stage⟩) :
    st.heldByOperation = stage.heldBytes := by
  rw [heldByOperation, hop]
  rfl

theorem reads_of (hop : st.operation = some ⟨context, stage⟩) : st.reads = stage.reads := by
  rw [reads, hop]
  rfl

theorem Charged.quiet_of (h : st.Charged) (hop : st.operation = some ⟨context, stage⟩)
    (hreads : stage.reads = false) :
    st.shared.window.windowHold = false ∧ st.shared.window.windowHoldBytes = 0 :=
  h.quiet ((reads_of hop).trans hreads)

theorem busySlot_ne (hop : st.operation = some ⟨context, stage⟩) (hbusy : stage.busySlot = none) :
    st.atStage HtodStage.busySlot ≠ some i := by
  rw [atStage_of hop, hbusy]
  simp

theorem Charged.leave (h : st.Charged) (hop : st.operation = some ⟨context, stage⟩)
    (hbusy : stage.busySlot = none) (hreads : stage.reads = false) (hslots : st'.slots = st.slots)
    (hspills : st'.spills = st.spills) (hwindow : st'.shared.window = st.shared.window)
    (hbytes : st'.heldByOperation = stage.heldBytes) : st'.Charged := by
  refine h.move hslots hspills ?_ ?_ (fun i hi ↦ absurd hi (busySlot_ne hop hbusy)) fun _ ↦ ?_
  · rw [hwindow]
    exact h.balanced
  · rw [hwindow, hbytes, heldByOperation_of hop]
  · rw [hwindow]
    exact h.quiet_of hop hreads

theorem Charged.startReading (h : st.Charged) (hop : st.operation = some ⟨context, stage⟩)
    (hreads : stage.reads = false) {reading : HtodStage} (hreading : reading.reads = true)
    (hslot : reading.busySlot = stage.busySlot) (hheld : reading.heldBytes = stage.heldBytes) :
    ((st.onWindow (·.holdBegin)).goTo context reading).Charged := by
  obtain ⟨-, hnone⟩ := h.quiet_of hop hreads
  refine h.move rfl rfl ⟨h.balanced.1, h.balanced.2, h.balanced.3, h.balanced.4⟩ ?_
    (fun j hj ↦ ((atStage_of hop _).trans hslot.symm).symm.trans hj)
    fun hquiet ↦ absurd (hquiet.symm.trans hreading) Bool.noConfusion
  rw [heldByOperation_of hop, hnone, ← hheld]
  rfl

theorem Charged.holdBegin (h : st.Charged) (hstep : st.holdBegin = some st') : st'.Charged := by
  obtain ⟨context, i, hop, rfl⟩ | ⟨context, spill, hop, rfl⟩ := holdBegin_cases hstep
  · exact h.startReading hop rfl rfl rfl rfl
  · exact h.startReading hop rfl rfl rfl rfl

theorem Charged.discard (h : st.Charged) {spill : AsyncHtodSpill} {switched : Bool}
    (hop : st.operation = some ⟨context, stage⟩) (hspill : stage.heldBytes = spill.heldWindowBytes)
    (hbusy : stage.busySlot = none) (hreads : stage.reads = false) :
    { st with shared := spill.discard st.shared switched }.finish.Charged := by
  have hwindow : (spill.discard st.shared switched).window
      = st.shared.window.release spill.heldWindowBytes := released_freeHost _ _ switched
  have hempty := h.allEmpty ((atStage_of hop _).trans hbusy)
  have htotal := h.held
  rw [totalHeld, heldByOperation_of hop, hspill] at htotal
  refine ⟨?_, ?_, fun _ slot hslot _ ↦ hempty slot (List.mem_of_getElem? hslot), fun _ ↦ ?_⟩
  · show (spill.discard st.shared switched).window.Balanced
    rw [hwindow]
    exact h.balanced.release (by omega)
  · show (spill.discard st.shared switched).window.windowHeld = heldBySlots st.slots
      + heldBySpills st.spills + 0 + (spill.discard st.shared switched).window.windowHoldBytes
    rw [hwindow, H2Window.windowHeld_release, H2Window.windowHoldBytes_release]
    omega
  · show (spill.discard st.shared switched).window.windowHold = false
      ∧ (spill.discard st.shared switched).window.windowHoldBytes = 0
    rw [hwindow, H2Window.windowHold_release, H2Window.windowHoldBytes_release]
    exact h.quiet_of hop hreads

/-- What was held while the payload was read is charged to its slot or spill. -/
theorem Charged.holdEnd (h : st.Charged) (hinv : st.Inv) {succeeded switched : Bool}
    (hok : slotReadFails st (.holdEnd succeeded switched) = false)
    (hstep : st.holdEnd succeeded switched = some st') : st'.Charged := by
  have hbalanced : (st.shared.window.holdEnd.2).Balanced :=
    ⟨h.balanced.1, h.balanced.2, h.balanced.3, h.balanced.4⟩
  obtain ⟨context, i, hop, rfl⟩ | ⟨context, spill, filled, hop, hfilled, hstage⟩ :=
    holdEnd_cases hstep
  · -- the read into a slot did not fail
    obtain rfl : succeeded = true := by
      cases succeeded
      · exact absurd hok (by rw [slotReadFails, atStage_of hop]; simp [HtodStage.readingSlot])
      · rfl
    have hbusy := atStage_of hop HtodStage.busySlot
    obtain ⟨slot, hslot, -⟩ := hinv.busy i hbusy
    have hended : (st.onWindow fun window ↦ window.holdEnd.2).slots[i]? = some slot := hslot
    simp only [if_pos]
    rw [onSlot_eq hended]
    refine h.onSlot hbusy hslot rfl rfl hbalanced ?_ (Or.inr rfl) fun _ ↦ ⟨rfl, rfl⟩
    rw [heldByOperation_of hop]
    show st.shared.window.windowHeld + (slot.heldWindowBytes + 0 + st.shared.window.windowHoldBytes)
      = st.shared.window.windowHeld
        + (slot.heldWindowBytes + st.shared.window.windowHoldBytes + 0 + 0)
    omega
  · have hbytes := heldByOperation_of hop
    have hread : ∀ stage : HtodStage,
        stage.heldBytes = spill.heldWindowBytes + st.shared.window.windowHoldBytes →
        ((st.onWindow fun window ↦ window.holdEnd.2).goTo context stage).Charged := by
      intro stage hstage
      refine h.move rfl rfl hbalanced ?_ (fun i hi ↦ absurd hi (busySlot_ne hop rfl))
        fun _ ↦ ⟨rfl, rfl⟩
      rw [hbytes]
      show st.shared.window.windowHeld
          + (spill.heldWindowBytes + st.shared.window.windowHoldBytes)
        = st.shared.window.windowHeld + (stage.heldBytes + 0)
      omega
    have hheld : filled.heldWindowBytes =
        spill.heldWindowBytes + st.shared.window.windowHoldBytes := by rw [hfilled]
    rcases hstage with ⟨stage, ⟨-, rfl⟩ | ⟨-, -, rfl⟩, rfl⟩ | ⟨-, -, rfl⟩
    · exact hread _ hheld
    · exact hread _ hheld
    · -- charged first, then discarded
      exact (hread (.spillFailed filled) hheld).discard rfl rfl rfl rfl

theorem Charged.copy (h : st.Charged) (hinv : st.Inv) {result : CUresult}
    (hstep : st.copy result = some st') : st'.Charged := by
  obtain ⟨context, i, hop, rfl⟩ | ⟨context, spill, queued, stage, hop, rfl, hstage, rfl⟩ :=
    copy_cases hstep
  · have hbusy := atStage_of hop HtodStage.busySlot
    obtain ⟨slot, hslot, -⟩ := hinv.busy i hbusy
    rw [onSlot_eq hslot]
    refine h.onSlot hbusy hslot rfl rfl h.balanced ?_ (Or.inr rfl) fun _ ↦ h.quiet_of hop rfl
    rw [heldByOperation_of hop]
    rfl
  · rcases hstage with ⟨-, rfl⟩ | ⟨-, rfl⟩
    · exact h.leave hop rfl rfl rfl rfl rfl rfl
    · exact h.leave hop rfl rfl rfl rfl rfl rfl

theorem Charged.publishSpill (h : st.Charged) {spill : AsyncHtodSpill}
    (hop : st.operation = some ⟨context, stage⟩) (hspill : stage.heldBytes = spill.heldWindowBytes)
    (hbusy : stage.busySlot = none) (hreads : stage.reads = false) (result : CUresult) :
    { st with
      spills := st.spills ++ [(spill.publish st.shared result).1]
      shared := (spill.publish st.shared result).2 }.finish.Charged := by
  have hempty := h.allEmpty ((atStage_of hop _).trans hbusy)
  have htotal := h.held
  have hquiet := h.quiet_of hop hreads
  rw [totalHeld, heldByOperation_of hop, hspill] at htotal
  have hle : spill.heldWindowBytes ≤ st.shared.window.windowHeld := by omega
  rw [AsyncHtodSpill.publish]
  split_ifs
  · refine ⟨h.balanced, ?_, fun _ slot hslot _ ↦ hempty slot (List.mem_of_getElem? hslot),
      fun _ ↦ hquiet⟩
    show st.shared.window.windowHeld = heldBySlots st.slots
      + heldBySpills (st.spills ++ [_]) + 0 + st.shared.window.windowHoldBytes
    rw [heldBySpills_concat]
    show _ = _ + (_ + spill.heldWindowBytes) + 0 + _
    omega
  · refine ⟨h.balanced.release hle, ?_,
      fun _ slot hslot _ ↦ hempty slot (List.mem_of_getElem? hslot), fun _ ↦ ?_⟩
    · show (st.shared.window.release spill.heldWindowBytes).windowHeld = heldBySlots st.slots
        + heldBySpills (st.spills ++ [_]) + 0
        + (st.shared.window.release spill.heldWindowBytes).windowHoldBytes
      rw [heldBySpills_concat, H2Window.windowHeld_release, H2Window.windowHoldBytes_release]
      show _ = _ + (_ + 0) + 0 + _
      omega
    · show (st.shared.window.release _).windowHold = false
        ∧ (st.shared.window.release _).windowHoldBytes = 0
      rw [H2Window.windowHold_release, H2Window.windowHoldBytes_release]
      exact hquiet

theorem Charged.published (h : st.Charged) (hop : st.operation = some ⟨context, stage⟩)
    (hbusy : stage.busySlot = some i) (hreads : stage.reads = false) {slot : AsyncHtodSlot}
    (hslot : st.slots[i]? = some slot) {result : CUresult}
    (hslots : st'.slots = st.slots.set i (slot.publish st.shared result).1)
    (hspills : st'.spills = st.spills) (hshared : st'.shared = (slot.publish st.shared result).2)
    (hbefore : st.heldByOperation = 0) (hafter : st'.heldByOperation = 0) : st'.Charged := by
  obtain ⟨n, hn, hreleased⟩ := slot.publish_spends st.shared result
  have hquiet := h.quiet_of hop hreads
  have htotal := h.held
  -- the slots without this one are charged with the rest
  have hset := heldBySlots_set hslot {}
  rw [totalHeld] at htotal
  have hle : n ≤ st.shared.window.windowHeld := by
    have hzero : heldBySlots (st.slots.set i {}) + slot.heldWindowBytes
        = heldBySlots st.slots + 0 := hset
    omega
  have hwindow : st'.shared.window = st.shared.window.release n := by
    rw [hshared]
    exact hreleased
  refine h.onSlot ((atStage_of hop _).trans hbusy) hslot hslots hspills ?_ ?_
    (Or.inl (slot.empty_publish st.shared result)) fun _ ↦ ?_
  · rw [hwindow]
    exact h.balanced.release hle
  · rw [hwindow, H2Window.windowHeld_release, H2Window.windowHoldBytes_release, hbefore, hafter]
    omega
  · rw [hwindow, H2Window.windowHold_release, H2Window.windowHoldBytes_release]
    exact hquiet

theorem Charged.publish (h : st.Charged) (hinv : st.Inv) {result : CUresult}
    (hstep : st.publish result = some st') : st'.Charged := by
  obtain ⟨context, i, succeeded, hop, rfl⟩ | ⟨context, stage, spill, hop, hstage, -, rfl⟩ :=
    publish_cases hstep
  · have hbusy := atStage_of hop HtodStage.busySlot
    obtain ⟨slot, hslot, -⟩ := hinv.busy i hbusy
    simp only [onSlot_eq hslot]
    have hnone := heldByOperation_of hop
    split_ifs
    · exact h.published hop rfl rfl hslot rfl rfl rfl hnone rfl
    · exact h.published hop rfl rfl hslot rfl rfl rfl hnone rfl
  · rcases hstage with rfl | rfl
    · exact h.publishSpill hop rfl rfl rfl result
    · exact h.publishSpill hop rfl rfl rfl result

theorem Charged.beginSpill (h : st.Charged) {room allocated created switched : Bool}
    (hstep : st.beginSpill room allocated created switched = some st') : st'.Charged := by
  obtain ⟨context, ptr, spill, hop, -, rfl, hcases⟩ := beginSpill_cases hstep
  rcases hcases with ⟨-, rfl⟩ | ⟨-, -, rfl⟩ | ⟨-, -, rfl⟩
  · exact h.leave hop rfl rfl rfl rfl rfl rfl
  · exact h.leave hop rfl rfl rfl rfl rfl rfl
  · exact h.discard hop rfl rfl rfl

theorem Charged.begin (h : st.Charged) (hidle : st.operation = none) :
    (st.goTo context .choosing).Charged := by
  refine h.move rfl rfl h.balanced ?_ (fun i hi ↦ ?_) fun _ ↦ h.quiet ?_
  · rw [heldByOperation, hidle]
    rfl
  · exact absurd ((atStage_of_none hidle _).symm.trans hi) (by simp)
  · rw [reads, hidle]
    rfl

theorem Charged.acquire (h : st.Charged) (hop : st.operation = some ⟨context, .choosing⟩)
    (cuda : SweepAnswers) (answers : ℕ → ℕ → AsyncHtodSlot.PrepareAnswers) :
    (st.acquireSlot context cuda answers).2.Charged ∧
      ∀ i, ((st.acquireSlot context cuda answers).2.goTo context (.acquired i)).Charged := by
  have hempty := h.allEmpty (atStage_of hop _)
  have hacquired := h.swept (swept_acquireSlot context cuda answers hempty)
  have hstage : (st.acquireSlot context cuda answers).2.operation = some ⟨context, .choosing⟩ := hop
  exact ⟨hacquired, fun _ ↦ hacquired.leave hstage rfl rfl rfl rfl rfl rfl⟩

theorem Charged.onDataChunkRecv (h : st.Charged) (len : ℕ) :
    (st.onWindow fun window ↦ window.onDataChunkRecv len).Charged := by
  refine h.move rfl rfl (h.balanced.onDataChunkRecv len) ?_ (fun _ hi ↦ hi) fun hreads ↦ ?_
  · show st.shared.window.windowHeld + st.shared.window.heldOf len + (st.heldByOperation + _)
      = st.shared.window.windowHeld
        + (st.heldByOperation + (st.shared.window.windowHoldBytes + st.shared.window.heldOf len))
    omega
  · obtain ⟨hhold, hnone⟩ := h.quiet hreads
    refine ⟨hhold, ?_⟩
    show st.shared.window.windowHoldBytes + st.shared.window.heldOf len = 0
    rw [hnone, H2Window.heldOf_of_not_hold hhold]

theorem charged_init : Charged {} := by
  refine ⟨H2Window.balanced_init, rfl, fun i slot hslot _ ↦ ?_, fun _ ↦ ⟨rfl, rfl⟩⟩
  rw [List.eq_of_mem_replicate (List.mem_of_getElem? hslot)]
  exact fun _ ↦ rfl

end AsyncStaging

/-- A step in which no payload read into a slot fails keeps the balance. -/
theorem charged_stagingStep {st st' : AsyncStaging} {step : StagingStep} (h : st.Charged)
    (hinv : st.Inv) (hok : slotReadFails st step = false)
    (hstep : stagingStep st step = some st') : st'.Charged := by
  cases step with
  | begin context =>
    obtain ⟨⟨hidle, -⟩, rfl⟩ := Option.ite_some_none_eq_some.mp hstep
    exact h.begin hidle
  | acquire cuda answers =>
    obtain ⟨context, hop, hfound⟩ := stagingStep_acquire_cases hstep
    obtain ⟨hnone, hsome⟩ := h.acquire hop cuda answers
    rcases hfound with ⟨i, -, rfl⟩ | ⟨-, rfl⟩
    · exact hsome i
    · exact hnone
  | holdBegin => exact h.holdBegin hstep
  -- these move bytes between the sums, so they need what the invariant says of the slot
  | holdEnd succeeded switched => exact h.holdEnd hinv hok hstep
  | copy result => exact h.copy hinv hstep
  | publish result => exact h.publish hinv hstep
  | beginSpill room allocated created switched => exact h.beginSpill hstep
  | finish =>
    obtain ⟨context, hop, rfl⟩ := stagingStep_finish_cases hstep
    exact h.leave hop rfl rfl rfl rfl rfl rfl
  | retire context cuda =>
    obtain ⟨hidle, rfl⟩ := Option.ite_some_none_eq_some.mp hstep
    -- between two operations every available slot is charged with nothing
    exact h.swept (AsyncStaging.swept_retireContext cuda
      (h.allEmpty (AsyncStaging.atStage_of_none hidle _)))
  | forget context =>
    obtain ⟨hidle, rfl⟩ := Option.ite_some_none_eq_some.mp hstep
    exact h.swept (AsyncStaging.swept_forgetContext
      (h.allEmpty (AsyncStaging.atStage_of_none hidle _)))
  | data len =>
    obtain rfl := Option.some.inj hstep
    exact h.onDataChunkRecv len
  | readStaged size =>
    obtain rfl := Option.some.inj hstep
    exact h.move rfl rfl (h.balanced.readStaged size) rfl (fun _ hi ↦ hi) h.quiet
  | beginNetRead capacity =>
    obtain ⟨-, rfl⟩ := Option.ite_some_none_eq_some.mp hstep
    exact h.move rfl rfl ⟨h.balanced.1, h.balanced.2, h.balanced.3, h.balanced.4⟩ rfl
      (fun _ hi ↦ hi) h.quiet
  | endNetRead =>
    obtain rfl := Option.some.inj hstep
    exact h.move rfl rfl ⟨h.balanced.1, h.balanced.2, h.balanced.3, h.balanced.4⟩ rfl
      (fun _ hi ↦ hi) h.quiet

/-! ## Runs and the window

The condition leaves out one step, a payload that could not be read into a slot. -/

/-- **The window is balanced.** In every run in which no payload read into a slot fails, every byte
received is credited to the peer or held, whether or not it has been read; the held bytes are those
charged to slots, spills and the hold in progress, and never more than the cap; a byte that was ever
held has been released, once, or is still held; and an available slot that no operation is filling
is charged with nothing. -/
theorem stagingWindow_balanced {steps : List StagingStep} {st : AsyncStaging}
    (hrun : (stagingMachine.restrict fun st step ↦ slotReadFails st step = false).run {} steps
      = some st) :
    st.shared.window.received = st.shared.window.credited + st.shared.window.windowHeld ∧
      st.shared.window.received = st.shared.window.readBytes + st.shared.window.stagedBytes ∧
      st.shared.window.windowHeld = st.totalHeld ∧
      st.shared.window.windowHeld ≤ kH2MaxHeldBytes ∧
      st.shared.window.everHeld = st.shared.window.released + st.shared.window.windowHeld ∧
      ∀ i slot, st.slots[i]? = some slot → slot.state = .available →
        st.atStage HtodStage.busySlot ≠ some i → slot.heldWindowBytes = 0 := by
  have hinit : AsyncStaging.Inv {} ∧ AsyncStaging.Charged {} :=
    ⟨AsyncStaging.inv_init, AsyncStaging.charged_init⟩
  obtain ⟨-, h⟩ := Machine.run_invariant _ (I := fun st ↦ st.Inv ∧ st.Charged)
    (fun st step st' hst hstep ↦ by
      obtain ⟨hok, hstep⟩ := Machine.step_restrict.mp hstep
      exact ⟨inv_stagingStep hst.1 hstep, charged_stagingStep hst.2 hst.1 hok hstep⟩) hinit hrun
  exact ⟨h.balanced.received_eq, h.balanced.read_eq, h.held, h.balanced.held_le,
    h.balanced.everHeld_eq, fun i slot hslot hstate hbusy ↦ h.empty i slot hslot hbusy hstate⟩

/-- All that a slot and a spill held is given back by the end. -/
theorem stagingWindow_balanced_ringThenSpill :
    ∃ st, (stagingMachine.restrict fun st step ↦ slotReadFails st step = false).run {} ringThenSpill
        = some st ∧
      st.shared.window.received = 160 ∧ st.shared.window.released = 160 ∧
      st.shared.window.received = st.shared.window.credited + st.shared.window.windowHeld ∧
      st.shared.window.everHeld = st.shared.window.released + st.shared.window.windowHeld := by
  have hrun : ((stagingMachine.restrict fun st step ↦ slotReadFails st step = false).run {}
      ringThenSpill).map (fun st ↦ (st.shared.window.received, st.shared.window.released))
        = some (160, 160) := by decide +kernel
  obtain ⟨st, hst, hview⟩ := Option.map_eq_some_iff.mp hrun
  obtain ⟨hreceived, hreleased⟩ := Prod.mk.inj hview
  obtain ⟨hcredited, -, -, -, hheld, -⟩ := stagingWindow_balanced hst
  exact ⟨st, hst, hreceived, hreleased, hcredited, hheld⟩

/-- A payload is read into an available slot. -/
def oneRead (succeeded : Bool) : List StagingStep :=
  [.begin 1, .acquire (uniformAnswers .success) fun _ _ ↦ ⟨true, true, true⟩, .holdBegin, .data 100,
    .holdEnd succeeded true]

/-- Bytes that wait to be read are credited already. A slot is available while it is filled and then
charged with its payload. When the payload could not be read it stays so, and the bytes are held for
good once the slot is reset for another context. -/
theorem stagingWindow_unbalanced :
    (∃ st, stagingMachine.run {} [.data 10] = some st ∧
        st.shared.window.received ≠ st.shared.window.credited + st.shared.window.windowHeld
          + st.shared.window.stagedBytes) ∧
      (∃ st, stagingMachine.run {} (oneRead true) = some st ∧
        ∃ slot ∈ st.slots, slot.state = .available ∧ slot.heldWindowBytes = 100) ∧
      ∃ st, stagingMachine.run {} (oneRead false ++ [.begin 2, .acquire (uniformAnswers .success)
          fun pass _ ↦ ⟨true, pass = 2, true⟩]) = some st ∧
        st.shared.window.windowHeld = 100 ∧ st.totalHeld = 0 := by
  refine ⟨?_, ?_, ?_⟩
  · have hrun : (stagingMachine.run {} [.data 10]).map (fun st ↦ (st.shared.window.received,
        st.shared.window.credited, st.shared.window.windowHeld, st.shared.window.stagedBytes))
          = some (10, 10, 0, 10) := by decide +kernel
    obtain ⟨st, hst, hview⟩ := Option.map_eq_some_iff.mp hrun
    obtain ⟨hreceived, hview⟩ := Prod.mk.inj hview
    obtain ⟨hcredited, hview⟩ := Prod.mk.inj hview
    obtain ⟨hheld, hstaged⟩ := Prod.mk.inj hview
    refine ⟨st, hst, ?_⟩
    rw [hreceived, hcredited, hheld, hstaged]
    decide
  · have hrun : (stagingMachine.run {} (oneRead true)).map (fun st ↦
        decide (∃ slot ∈ st.slots, slot.state = .available ∧ slot.heldWindowBytes = 100))
          = some true := by decide +kernel
    obtain ⟨st, hst, hview⟩ := Option.map_eq_some_iff.mp hrun
    exact ⟨st, hst, of_decide_eq_true hview⟩
  · have hrun : (stagingMachine.run {} (oneRead false ++ [.begin 2,
        .acquire (uniformAnswers .success) fun pass _ ↦ ⟨true, pass = 2, true⟩])).map
          (fun st ↦ (st.shared.window.windowHeld, st.totalHeld)) = some (100, 0) := by
      decide +kernel
    obtain ⟨st, hst, hview⟩ := Option.map_eq_some_iff.mp hrun
    obtain ⟨hheld, htotal⟩ := Prod.mk.inj hview
    exact ⟨st, hst, hheld, htotal⟩

end Lupine
