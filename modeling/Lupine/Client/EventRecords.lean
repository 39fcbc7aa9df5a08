import Lupine.Client.EventTable
import Lupine.Foundation.History
import Lupine.Foundation.Machine

/-!
# Records and results of the event table

A thread that records an event first draws a sequence number and then stores it under the lock of
the table, so that numbers arrive there out of order. The results of a query come when the record
they were asked about may have been replaced, the event destroyed and its handle given to another
one, or the slot given up. A result counts only for the record it carries.

To collect a batch changes nothing: it is a question asked of a state. The results are any at all,
and the number is one of 64 bits.

## What a slot remembers

The record in a slot is the last of its event that was stored, and it is complete only if a result
that carries it said so. Numbers are drawn once, as long as the counter does not come round, so the
record of a slot tells apart the results that are about it from those about an earlier record, an
earlier event of the handle, or an earlier use of the slot.
-/

namespace Lupine

open Foundation

/-- The table, with the sequence numbers that threads have drawn and not stored yet. -/
structure RecordingTable extends EventTable where
  drawn : List ℕ := []
  deriving DecidableEq, Repr

inductive TableStep where
  /-- `record_seq.fetch_add(1) + 1`. -/
  | drawSeq
  | noteRecorded (event : CUevent) (seq : ℕ)
  | noteDestroyed (event : CUevent)
  | noteQueryResults (results : List (BatchEntry × Bool))
  deriving DecidableEq, Repr

/-- `record_seq` after the next number is drawn, which is that number. -/
def nextSeq (recordSeq : ℕ) : ℕ := (recordSeq + 1) % 2 ^ 64

def tableStep (st : RecordingTable) : TableStep → Option RecordingTable
  | .drawSeq =>
    some { st with recordSeq := nextSeq st.recordSeq, drawn := nextSeq st.recordSeq :: st.drawn }
  | .noteRecorded event seq =>
    if event ≠ 0 ∧ seq ∈ st.drawn then
      some { st with slots := noteRecorded st.slots event seq, drawn := st.drawn.erase seq }
    else none
  | .noteDestroyed event =>
    if event ≠ 0 then some { st with slots := noteDestroyed st.slots event } else none
  | .noteQueryResults results => some { st with slots := noteQueryResults st.slots results }

def tableMachine : Machine RecordingTable TableStep := ⟨tableStep⟩

namespace TableStep

/-- The event is recorded or destroyed. -/
def Touches (event : CUevent) : TableStep → Prop
  | noteRecorded other _ | noteDestroyed other => other = event
  | drawSeq | noteQueryResults _ => False

/-- A result reports the record of the event complete. -/
def Reports (event : CUevent) (recorded : ℕ) : TableStep → Prop
  | noteQueryResults results => (⟨event, recorded⟩, true) ∈ results
  | drawSeq | noteRecorded .. | noteDestroyed _ => False

end TableStep

open TableStep

def draws (steps : List TableStep) : ℕ := steps.count .drawSeq

/-! ## What a slot remembers

A slot changes when its event is recorded or destroyed, when a result is about its record, or when
it is given up. What happens to other events leaves it alone. -/

/-- The record of the slot is the last of its event, and complete only if it was reported so. -/
structure SlotInv (steps : List TableStep) (st : RecordingTable) (slot : EventSlot) : Prop where
  stored : Since (· = .noteRecorded slot.event slot.recorded) (Touches slot.event) steps
  reported : slot.recorded = slot.completed →
    Since (Reports slot.event slot.recorded) (Touches slot.event) steps
  recorded : slot.recorded ≤ st.recordSeq ∧ slot.recorded ∉ st.drawn
  completed : slot.completed ≤ st.recordSeq ∧ slot.completed ∉ st.drawn

/-- Numbers are drawn once, and every slot remembers what it should. -/
structure RecordsInv (steps : List TableStep) (st : RecordingTable) : Prop where
  recordSeq : st.recordSeq = draws steps
  nodup : st.drawn.Nodup
  drawn : ∀ seq ∈ st.drawn, seq ≠ 0 ∧ seq ≤ st.recordSeq
  slots : ∀ slot ∈ st.slots, slot.event ≠ 0 → SlotInv steps st slot

variable {steps : List TableStep} {st st' : RecordingTable} {slot : EventSlot}

theorem SlotInv.concat (h : SlotInv steps st slot) {step : TableStep}
    (hother : ¬step.Touches slot.event) (hseq : st.recordSeq ≤ st'.recordSeq)
    (hdrawn : ∀ seq ∈ st'.drawn, seq ∈ st.drawn ∨ st.recordSeq < seq) :
    SlotInv (steps ++ [step]) st' slot := by
  have hkept : ∀ {seq : ℕ}, seq ≤ st.recordSeq ∧ seq ∉ st.drawn →
      seq ≤ st'.recordSeq ∧ seq ∉ st'.drawn := by
    rintro seq ⟨hle, hout⟩
    refine ⟨Nat.le_trans hle hseq, fun hmem ↦ ?_⟩
    rcases hdrawn seq hmem with hmem | hlt
    · exact hout hmem
    · exact absurd hle (Nat.not_le.mpr hlt)
  exact ⟨h.stored.concat hother, fun heq ↦ (h.reported heq).concat hother, hkept h.recorded,
    hkept h.completed⟩

theorem recordsInv_init : RecordsInv [] {} where
  recordSeq := rfl
  nodup := List.nodup_nil
  drawn _ hseq := nomatch hseq
  slots slot hslot he := by
    obtain rfl := List.eq_of_mem_replicate hslot
    exact absurd rfl he

theorem RecordsInv.drawSeq (h : RecordsInv steps st)
    (hdraws : draws (steps ++ [.drawSeq]) < 2 ^ 64) :
    RecordsInv (steps ++ [.drawSeq])
      { st with recordSeq := nextSeq st.recordSeq, drawn := nextSeq st.recordSeq :: st.drawn } := by
  have hcount : draws (steps ++ [.drawSeq]) = draws steps + 1 := by
    rw [draws, List.count_append, List.count_singleton_self]
    rfl
  have hnext : nextSeq st.recordSeq = st.recordSeq + 1 := by
    rw [nextSeq, h.recordSeq]
    exact Nat.mod_eq_of_lt (hcount ▸ hdraws)
  rw [hnext]
  constructor
  · rw [hcount, h.recordSeq]
  · exact List.nodup_cons.mpr
      ⟨fun hmem ↦ absurd (h.drawn _ hmem).2 (Nat.not_succ_le_self _), h.nodup⟩
  · intro seq hseq
    rcases List.mem_cons.mp hseq with rfl | hseq
    · exact ⟨Nat.succ_ne_zero _, le_rfl⟩
    · exact ⟨(h.drawn seq hseq).1, Nat.le_succ_of_le (h.drawn seq hseq).2⟩
  · intro slot hslot he
    refine (h.slots slot hslot he).concat id (Nat.le_succ _) fun seq hseq ↦ ?_
    rcases List.mem_cons.mp hseq with rfl | hseq
    · exact Or.inr (Nat.lt_succ_self _)
    · exact Or.inl hseq

theorem draws_concat {step : TableStep} (h : step ≠ .drawSeq) :
    draws (steps ++ [step]) = draws steps := by
  rw [draws, List.count_append, List.count_singleton, if_neg (by simpa using h), Nat.add_zero]
  rfl

theorem RecordsInv.noteRecorded (h : RecordsInv steps st) (hunique : UniqueEvents st.slots)
    {event : CUevent} {seq : ℕ} (he : event ≠ 0) (hseq : seq ∈ st.drawn) :
    RecordsInv (steps ++ [.noteRecorded event seq])
      { st with slots := Lupine.noteRecorded st.slots event seq, drawn := st.drawn.erase seq } := by
  have hsub : ∀ other ∈ st.drawn.erase seq, other ∈ st.drawn := fun _ ↦ List.mem_of_mem_erase
  constructor
  · exact h.recordSeq.trans (draws_concat (by simp)).symm
  · exact h.nodup.erase seq
  · exact fun other hother ↦ h.drawn other (hsub other hother)
  · intro slot hslot hslotEvent
    rcases mem_noteRecorded hunique he hslot with ⟨rfl, rfl, hcompleted⟩ | ⟨hold, hother⟩
    · have hfree : slot.completed ≤ st.recordSeq ∧ slot.completed ∉ st.drawn := by
        rcases hcompleted with hzero | ⟨old, hold, hevent, heq⟩
        · rw [hzero]
          exact ⟨Nat.zero_le _, fun hmem ↦ (h.drawn 0 hmem).1 rfl⟩
        · rw [heq]
          exact (h.slots old hold (hevent ▸ he)).completed
      refine ⟨Since.last _ rfl, fun heq ↦ ?_, ?_, hfree.1, fun hmem ↦ hfree.2 (hsub _ hmem)⟩
      · exact absurd (heq ▸ hseq) hfree.2
      · exact ⟨(h.drawn _ hseq).2, h.nodup.not_mem_erase⟩
    · exact (h.slots slot hold hslotEvent).concat (fun heq ↦ hother heq.symm) le_rfl
        fun other hmem ↦ Or.inl (hsub other hmem)

theorem RecordsInv.noteDestroyed (h : RecordsInv steps st) (event : CUevent) :
    RecordsInv (steps ++ [.noteDestroyed event])
      { st with slots := Lupine.noteDestroyed st.slots event } := by
  refine ⟨h.recordSeq.trans (draws_concat (by simp)).symm, h.nodup, h.drawn, ?_⟩
  intro slot hslot he
  rcases mem_noteDestroyed hslot with rfl | ⟨hold, hother⟩
  · exact absurd rfl he
  · exact (h.slots slot hold he).concat (fun heq ↦ hother heq.symm) le_rfl fun _ ↦ Or.inl

/-- A result completes the record it carries, if that is still the one of the slot. -/
theorem RecordsInv.noteQueryResults (h : RecordsInv steps st)
    (results : List (BatchEntry × Bool)) :
    RecordsInv (steps ++ [.noteQueryResults results])
      { st with slots := Lupine.noteQueryResults st.slots results } := by
  refine ⟨h.recordSeq.trans (draws_concat (by simp)).symm, h.nodup, h.drawn, ?_⟩
  intro slot hslot he
  obtain ⟨old, hold, hevent, hrecorded, hcompleted⟩ := mem_noteQueryResults hslot
  have hkept : SlotInv (steps ++ [.noteQueryResults results]) st old :=
    (h.slots old hold (hevent ▸ he)).concat id le_rfl fun _ ↦ Or.inl
  obtain ⟨hstored, hreported, hfree, hdone⟩ := hkept
  rw [← hevent, ← hrecorded] at hstored hreported
  rw [← hrecorded] at hfree
  rcases hcompleted with hsame | ⟨hfull, -, hresult⟩
  · rw [← hsame] at hreported hdone
    exact ⟨hstored, hreported, hfree, hdone⟩
  · exact ⟨hstored, fun _ ↦ Since.last _ hresult, hfree, hfull ▸ hfree⟩

/-- **What the table remembers.** In every run no event has two slots; and as long as the numbers
do not repeat, every slot has the last record of its event. -/
theorem table_run (hrun : tableMachine.run {} steps = some st) :
    UniqueEvents st.slots ∧ (draws steps < 2 ^ 64 → RecordsInv steps st) := by
  refine tableMachine.run_history (I := fun steps st ↦
    UniqueEvents st.slots ∧ (draws steps < 2 ^ 64 → RecordsInv steps st))
    ⟨uniqueEvents_replicate _, fun _ ↦ recordsInv_init⟩ ?_ hrun
  rintro steps st step st' - ⟨hunique, hinv⟩ hstep
  cases step with
  | drawSeq =>
    obtain rfl := Option.some.inj hstep
    refine ⟨hunique, fun hdraws ↦ (hinv (lt_of_le_of_lt ?_ hdraws)).drawSeq hdraws⟩
    rw [draws, draws, List.count_append]
    exact Nat.le_add_right _ _
  | noteRecorded event seq =>
    obtain ⟨⟨he, hseq⟩, rfl⟩ := Option.ite_some_none_eq_some.mp hstep
    refine ⟨uniqueEvents_noteRecorded hunique event seq, fun hdraws ↦ ?_⟩
    rw [draws_concat (by simp)] at hdraws
    exact (hinv hdraws).noteRecorded hunique he hseq
  | noteDestroyed event =>
    obtain ⟨-, rfl⟩ := Option.ite_some_none_eq_some.mp hstep
    refine ⟨uniqueEvents_noteDestroyed hunique event, fun hdraws ↦ ?_⟩
    rw [draws_concat (by simp)] at hdraws
    exact (hinv hdraws).noteDestroyed event
  | noteQueryResults results =>
    obtain rfl := Option.some.inj hstep
    refine ⟨uniqueEvents_noteQueryResults hunique results, fun hdraws ↦ ?_⟩
    rw [draws_concat (by simp)] at hdraws
    exact (hinv hdraws).noteQueryResults results

/-! ## Batches

The event that is asked for comes first, and the others are unfinished events of the same
connection, each once. -/

section Batches

variable {slots : List EventSlot} {primary : CUevent} {conn : ℕ} {resolver : CUevent → ℕ}

/-- An unfinished event of the connection, other than the one that is asked for. -/
def OtherEvent (slots : List EventSlot) (primary : CUevent) (conn : ℕ) (resolver : CUevent → ℕ)
    (entry : BatchEntry) : Prop :=
  entry.event ≠ 0 ∧ entry.event ≠ primary ∧ resolver entry.event = conn ∧
    ∃ slot ∈ slots, slot.event = entry.event ∧ slot.recorded = entry.recorded ∧
      slot.recorded ≠ slot.completed

theorem mem_otherEvents {entry : BatchEntry}
    (hentry : entry ∈ otherEvents slots primary conn resolver) :
    OtherEvent slots primary conn resolver entry := by
  obtain ⟨slot, hslot, rfl⟩ := List.mem_map.mp hentry
  obtain ⟨hmem, hkept⟩ := List.mem_filter.mp (List.mem_of_mem_take hslot)
  simp only [Bool.and_eq_true, bne_iff_ne, beq_iff_eq] at hkept
  exact ⟨hkept.1.1.1, hkept.1.1.2, hkept.2, slot, hmem, rfl, rfl, hkept.1.2⟩

theorem length_otherEvents_lt : (otherEvents slots primary conn resolver).length
    < eventQueryBatchMax := by
  rw [otherEvents, List.length_map]
  exact Nat.lt_of_le_of_lt (List.length_take_le _ _) (by decide)

theorem UniqueEvents.pairwise (h : UniqueEvents slots) :
    slots.Pairwise fun slot other ↦ slot.event ≠ 0 → slot.event ≠ other.event := by
  rw [List.pairwise_iff_getElem]
  intro i j hi hj hlt he heq
  refine absurd (h i j slots[i].event he ?_ ?_) (Nat.ne_of_lt hlt)
  · rw [List.getElem?_map, List.getElem?_eq_getElem hi]
    rfl
  · rw [List.getElem?_map, List.getElem?_eq_getElem hj]
    exact congrArg some heq.symm

theorem nodup_otherEvents (h : UniqueEvents slots) :
    ((otherEvents slots primary conn resolver).map BatchEntry.event).Nodup := by
  rw [otherEvents, List.map_map, List.Nodup, List.pairwise_map]
  have hkept := (h.pairwise.sublist List.filter_sublist).sublist (List.take_sublist
    (eventQueryBatchMax - 1) (slots.filter fun slot ↦ slot.event != 0 && slot.event != primary &&
      slot.recorded != slot.completed && resolver slot.event == conn))
  refine hkept.imp_of_mem fun {slot other} hslot _ hne ↦ hne ?_
  have hfilter := (List.mem_filter.mp (List.mem_of_mem_take hslot)).2
  simp only [Bool.and_eq_true, bne_iff_ne] at hfilter
  exact hfilter.1.1.1

theorem collectQueryBatch_eq_some {copiesPending : Bool} {batch : List BatchEntry}
    (h : collectQueryBatch slots copiesPending primary conn resolver = some batch) :
    ∃ recorded, batch = ⟨primary, recorded⟩ :: otherEvents slots primary conn resolver := by
  rw [collectQueryBatch] at h
  split at h
  next slot hslot =>
    obtain ⟨-, h⟩ := Option.ite_none_left_eq_some.mp h
    exact ⟨slot.recorded, (Option.some.inj h).symm⟩
  next => exact ⟨0, (Option.some.inj h).symm⟩

end Batches

/-- **The event table.** In every run no event has two slots. While fewer than `2 ^ 64` numbers are
drawn, an event is answered from the table only when a result that carries the record stored for it
reported it complete, and the event was neither recorded nor destroyed after that. A batch asks for
the event first, and for at most fifteen others, which are unfinished, distinct and on the
connection. -/
theorem table_answers (steps : List TableStep) (st : RecordingTable)
    (hrun : tableMachine.run {} steps = some st) :
    UniqueEvents st.slots ∧
    ∀ copiesPending primary conn resolver, primary ≠ 0 →
      (draws steps < 2 ^ 64 →
        collectQueryBatch st.slots copiesPending primary conn resolver = none →
          ∃ slot ∈ st.slots, slot.event = primary ∧
            Since (· = .noteRecorded primary slot.recorded) (Touches primary) steps ∧
            Since (Reports primary slot.recorded) (Touches primary) steps) ∧
      ∀ batch, collectQueryBatch st.slots copiesPending primary conn resolver = some batch →
        batch.head?.map BatchEntry.event = some primary ∧ batch.length ≤ eventQueryBatchMax ∧
          (batch.map BatchEntry.event).Nodup ∧
            ∀ entry ∈ batch.tail, OtherEvent st.slots primary conn resolver entry := by
  obtain ⟨hunique, hinv⟩ := table_run hrun
  refine ⟨hunique, fun copiesPending primary conn resolver hprimary ↦ ⟨fun hdraws hnone ↦ ?_,
    fun batch hsome ↦ ?_⟩⟩
  · obtain ⟨-, slot, hslot, rfl, hcomplete⟩ := collectQueryBatch_eq_none hnone
    have hslotInv := (hinv hdraws).slots slot hslot hprimary
    exact ⟨slot, hslot, rfl, hslotInv.stored, hslotInv.reported hcomplete⟩
  · obtain ⟨recorded, rfl⟩ := collectQueryBatch_eq_some hsome
    refine ⟨rfl, length_otherEvents_lt, ?_, fun entry hentry ↦ mem_otherEvents hentry⟩
    rw [List.map_cons, List.nodup_cons]
    refine ⟨fun hmem ↦ ?_, nodup_otherEvents hunique⟩
    obtain ⟨entry, hentry, heq⟩ := List.mem_map.mp hmem
    exact (mem_otherEvents hentry).2.1 heq

/-- An event is recorded, its query answered late, destroyed and recorded again under its handle. -/
def lateResult : List TableStep :=
  [.drawSeq, .drawSeq, .noteRecorded 1 2, .noteQueryResults [(⟨1, 2⟩, true)], .noteRecorded 1 1,
    .noteDestroyed 1, .drawSeq, .noteRecorded 1 3, .noteQueryResults [(⟨1, 1⟩, true)],
    .noteQueryResults [(⟨1, 3⟩, true)]]

theorem table_answers_lateResult :
    ∃ st, tableMachine.run {} lateResult = some st ∧
      collectQueryBatch st.slots false 1 0 (fun _ ↦ 0) = none ∧
        Since (Reports 1 3) (Touches 1) lateResult := by
  have hrun : ∃ st, tableMachine.run {} lateResult = some st ∧
      collectQueryBatch st.slots false 1 0 (fun _ ↦ 0) = none ∧
        ∀ slot ∈ st.slots, slot.event = 1 → slot.recorded = 3 :=
    ⟨_, rfl, rfl, by decide⟩
  obtain ⟨st, hrun, hnone, hthird⟩ := hrun
  obtain ⟨-, hanswers⟩ := table_answers lateResult st hrun
  obtain ⟨hreported, -⟩ := hanswers false 1 0 (fun _ ↦ 0) (by decide)
  obtain ⟨slot, hslot, hevent, -, hsince⟩ := hreported (by decide) hnone
  exact ⟨st, hrun, hnone, hthird slot hslot hevent ▸ hsince⟩

/-! ## Numbers that repeat

A counter that comes round gives a record the number 0, which a slot without a result has as
well. -/

def recordings (event : CUevent) : ℕ → List TableStep
  | 0 => []
  | n + 1 => recordings event n ++ [.drawSeq, .noteRecorded event ((n + 1) % 2 ^ 64)]

theorem noteRecorded_cons (event : CUevent) (recorded seq : ℕ) (slots : List EventSlot) :
    noteRecorded (⟨event, recorded, 0⟩ :: slots) event seq = ⟨event, seq, 0⟩ :: slots := by
  simp [noteRecorded, List.findIdx_cons]

theorem noteRecorded_replicate {event : CUevent} (he : event ≠ 0) (seq : ℕ) :
    noteRecorded (List.replicate 16 {}) event seq = ⟨event, seq, 0⟩ :: List.replicate 15 {} := by
  have hnew : ¬((List.replicate 16 ({} : EventSlot)).any fun slot ↦ slot.event == event) := by
    rw [List.any_eq_true]
    rintro ⟨slot, hslot, hevent⟩
    obtain rfl := List.eq_of_mem_replicate hslot
    exact he (beq_iff_eq.mp hevent).symm
  rw [noteRecorded, if_neg hnew, show victim (List.replicate 16 {}) = 0 from rfl]
  rfl

theorem run_recordings {event : CUevent} (he : event ≠ 0) (n : ℕ) :
    tableMachine.run {} (recordings event (n + 1)) = some
      { slots := ⟨event, (n + 1) % 2 ^ 64, 0⟩ :: List.replicate 15 {}
        recordSeq := (n + 1) % 2 ^ 64 } := by
  have hround : ∀ (st : RecordingTable) (seq : ℕ), st.drawn = [] → nextSeq st.recordSeq = seq →
      tableMachine.run st [.drawSeq, .noteRecorded event seq] =
        some { slots := noteRecorded st.slots event seq, recordSeq := seq,
               dtohIssued := st.dtohIssued, dtohDrained := st.dtohDrained } := by
    rintro st seq hdrawn rfl
    simp [Machine.run, tableMachine, tableStep, he, hdrawn]
  induction n with
  | zero =>
    rw [recordings, recordings, List.nil_append, hround {} ((0 + 1) % 2 ^ 64) rfl rfl]
    rw [show ({} : RecordingTable).slots = List.replicate 16 {} from rfl, noteRecorded_replicate he]
  | succ n ih =>
    have hnext : nextSeq ((n + 1) % 2 ^ 64) = (n + 1 + 1) % 2 ^ 64 := by
      rw [nextSeq, Nat.mod_add_mod]
    rw [recordings, Machine.run_append, ih, Option.bind_some, hround _ _ rfl hnext,
      noteRecorded_cons]

/-- **What a repeated number loses.** The record with the number 0 looks complete to the table,
which no result has been reported to. -/
theorem recordings_answered :
    (∀ step ∈ recordings 1 (2 ^ 64), ∀ recorded, ¬step.Reports 1 recorded) ∧
      ∃ st, tableMachine.run {} (recordings 1 (2 ^ 64)) = some st ∧
        collectQueryBatch st.slots false 1 0 (fun _ ↦ 0) = none := by
  have hnone : ∀ n, ∀ step ∈ recordings 1 n, ∀ recorded, ¬step.Reports 1 recorded := by
    intro n
    induction n with
    | zero => exact fun _ hstep ↦ nomatch hstep
    | succ n ih =>
      intro step hstep
      rcases List.mem_append.mp hstep with hold | hnew
      · exact ih step hold
      · rcases List.mem_cons.mp hnew with rfl | hnew
        · exact fun _ ↦ id
        · obtain rfl := List.mem_singleton.mp hnew
          exact fun _ ↦ id
  have hrepeats : ∀ n, (n + 1) % 2 ^ 64 = 0 →
      ∃ st, tableMachine.run {} (recordings 1 (n + 1)) = some st ∧
        collectQueryBatch st.slots false 1 0 (fun _ ↦ 0) = none := by
    intro n hn
    refine ⟨_, run_recordings (by decide) n, ?_⟩
    rw [hn]
    rfl
  have hlast := hrepeats (2 ^ 64 - 1)
  rw [Nat.sub_add_cancel Nat.one_le_two_pow] at hlast
  exact ⟨hnone _, hlast (Nat.mod_self _)⟩

end Lupine
