import Lupine.Cuda
import Mathlib.Data.List.Basic

/-!
# The event table of the client

The client keeps the events it has recorded last, each with the sequence number of its last record
and of the record that the server has reported complete. When the two agree a query is answered from
the table, unless copies wait at the server. Otherwise the query also asks about the other events of
the table whose records are outstanding.

The functions here take the sequence number of a record as it was drawn. Where it is drawn depends
on what is asked: `Lupine.Client.EventRecords` draws it from a counter of 64 bits, which comes back
to 0, and `Lupine.Client.EventQuery` from one that does not. The counts of copies do not wrap.
-/

namespace Lupine

/-- `LUPINE_EVENT_QUERY_BATCH_MAX`. -/
def eventQueryBatchMax : ℕ := 16

/-- `lupine_event_slot`; a slot without an event has the null event. -/
structure EventSlot where
  event : CUevent := 0
  recorded : ℕ := 0
  completed : ℕ := 0
  deriving DecidableEq, Repr

/-- `lupine_event_table`. -/
structure EventTable where
  slots : List EventSlot := List.replicate eventQueryBatchMax {}
  recordSeq : ℕ := 0
  dtohIssued : ℕ := 0
  dtohDrained : ℕ := 0
  deriving DecidableEq, Repr

/-- An event of a batch, with the record it was asked about. -/
structure BatchEntry where
  event : CUevent
  recorded : ℕ
  deriving DecidableEq, Repr

/-! ## The functions

The table is a list of slots of fixed length, and an event has at most one of them. -/

/-- The slot that is given up for a new event: the first of those recorded longest ago. -/
def victim (slots : List EventSlot) : ℕ :=
  slots.findIdx fun slot ↦ slots.all fun other ↦ slot.recorded ≤ other.recorded

/-- `lupine_event_note_recorded` once it has its sequence number. -/
def noteRecorded (slots : List EventSlot) (event : CUevent) (seq : ℕ) : List EventSlot :=
  if slots.any fun slot ↦ slot.event == event then
    slots.modify (slots.findIdx fun slot ↦ slot.event == event) fun slot ↦
      { slot with recorded := seq }
  else slots.set (victim slots) ⟨event, seq, 0⟩

/-- `lupine_event_note_destroyed`. -/
def noteDestroyed (slots : List EventSlot) (event : CUevent) : List EventSlot :=
  slots.map fun slot ↦ if slot.event = event then {} else slot

def otherEvents (slots : List EventSlot) (primary : CUevent) (conn : ℕ) (resolver : CUevent → ℕ) :
    List BatchEntry :=
  ((slots.filter fun slot ↦ slot.event != 0 && slot.event != primary &&
      slot.recorded != slot.completed && resolver slot.event == conn).take
    (eventQueryBatchMax - 1)).map fun slot ↦ ⟨slot.event, slot.recorded⟩

/-- `lupine_event_collect_query_batch`; `none` is an answer from the table. -/
def collectQueryBatch (slots : List EventSlot) (copiesPending : Bool) (primary : CUevent)
    (conn : ℕ) (resolver : CUevent → ℕ) : Option (List BatchEntry) :=
  match slots.find? fun slot ↦ slot.event == primary with
  | some slot =>
    if copiesPending = false ∧ slot.recorded = slot.completed then none
    else some (⟨primary, slot.recorded⟩ :: otherEvents slots primary conn resolver)
  | none => some (⟨primary, 0⟩ :: otherEvents slots primary conn resolver)

/-- `lupine_event_note_query_results` for one event. -/
def noteQueryResult (slots : List EventSlot) (entry : BatchEntry) (success : Bool) :
    List EventSlot :=
  if success = false ∨ entry.recorded = 0 then slots
  else slots.modify
    (slots.findIdx fun slot ↦ slot.event == entry.event && slot.recorded == entry.recorded)
    fun slot ↦ { slot with completed := entry.recorded }

/-- `lupine_event_note_query_results`. -/
def noteQueryResults (slots : List EventSlot) (results : List (BatchEntry × Bool)) :
    List EventSlot :=
  results.foldl (fun slots result ↦ noteQueryResult slots result.1 result.2) slots

/-! ## One slot for an event -/

/-- No event has two slots. -/
def UniqueEvents (slots : List EventSlot) : Prop :=
  ∀ (i j : ℕ) (e : CUevent), e ≠ 0 → (slots.map EventSlot.event)[i]? = some e →
    (slots.map EventSlot.event)[j]? = some e → i = j

theorem uniqueEvents_replicate (n : ℕ) : UniqueEvents (List.replicate n {}) := by
  intro i j e he hi
  rw [List.map_replicate, List.getElem?_replicate] at hi
  obtain ⟨-, hi⟩ := Option.ite_none_right_eq_some.mp hi
  exact absurd (Option.some.inj hi).symm he

theorem map_event_modify (slots : List EventSlot) (i : ℕ) {f : EventSlot → EventSlot}
    (hf : ∀ slot, (f slot).event = slot.event) :
    (slots.modify i f).map EventSlot.event = slots.map EventSlot.event := by
  refine List.ext_getElem? fun j ↦ ?_
  rw [List.getElem?_map, List.getElem?_map, List.getElem?_modify]
  cases slots[j]? with
  | none => rfl
  | some slot =>
    split_ifs
    · exact congrArg some (hf slot)
    · rfl

theorem uniqueEvents_modify {slots : List EventSlot} (h : UniqueEvents slots) (i : ℕ)
    {f : EventSlot → EventSlot} (hf : ∀ slot, (f slot).event = slot.event) :
    UniqueEvents (slots.modify i f) := by
  rw [UniqueEvents, map_event_modify slots i hf]
  exact h

theorem uniqueEvents_noteRecorded {slots : List EventSlot} (h : UniqueEvents slots)
    (event : CUevent) (seq : ℕ) : UniqueEvents (noteRecorded slots event seq) := by
  rw [noteRecorded]
  split_ifs with hfound
  · exact uniqueEvents_modify h _ fun _ ↦ rfl
  · -- The event is new, so only the slot given up has it.
    have hnone : ∀ j : ℕ, (slots.map EventSlot.event)[j]? ≠ some event := by
      intro j hj
      rw [List.getElem?_map] at hj
      obtain ⟨slot, hslot, hevent⟩ := Option.map_eq_some_iff.mp hj
      exact hfound (List.any_eq_true.mpr
        ⟨slot, List.mem_of_getElem? hslot, beq_iff_eq.mpr hevent⟩)
    intro i j e he hi hj
    rw [List.map_set, List.getElem?_set] at hi hj
    split_ifs at hi hj with hvi _ hvj
    · exact hvi.symm.trans hvj
    · exact absurd (hj.trans (hi.symm)) (hnone j)
    · exact absurd (hi.trans (hj.symm)) (hnone i)
    · exact h i j e he hi hj

theorem uniqueEvents_noteDestroyed {slots : List EventSlot} (h : UniqueEvents slots)
    (event : CUevent) : UniqueEvents (noteDestroyed slots event) := by
  have hold : ∀ (i : ℕ) (e : CUevent), e ≠ 0 →
      ((noteDestroyed slots event).map EventSlot.event)[i]? = some e →
        (slots.map EventSlot.event)[i]? = some e := by
    intro i e he hi
    rw [noteDestroyed, List.map_map, List.getElem?_map] at hi
    obtain ⟨slot, hslot, hevent⟩ := Option.map_eq_some_iff.mp hi
    rw [List.getElem?_map, hslot]
    rw [Function.comp_apply] at hevent
    split_ifs at hevent
    · exact absurd hevent.symm he
    · exact congrArg some hevent
  intro i j e he hi hj
  exact h i j e he (hold i e he hi) (hold j e he hj)

theorem uniqueEvents_noteQueryResults {slots : List EventSlot} (h : UniqueEvents slots)
    (results : List (BatchEntry × Bool)) : UniqueEvents (noteQueryResults slots results) := by
  induction results generalizing slots with
  | nil => exact h
  | cons result results ih =>
    refine ih ?_
    show UniqueEvents (noteQueryResult slots result.1 result.2)
    rw [noteQueryResult]
    split_ifs
    · exact h
    · exact uniqueEvents_modify h _ fun _ ↦ rfl

/-! ## What the slots hold -/

/-- After a record is noted, a slot is the one of its event, or one of another event as it was. -/
theorem mem_noteRecorded {slots : List EventSlot} (h : UniqueEvents slots) {event : CUevent}
    (he : event ≠ 0) {seq : ℕ} {slot : EventSlot} (hslot : slot ∈ noteRecorded slots event seq) :
    (slot.event = event ∧ slot.recorded = seq ∧
        (slot.completed = 0 ∨ ∃ old ∈ slots, old.event = event ∧ slot.completed = old.completed)) ∨
      slot ∈ slots ∧ slot.event ≠ event := by
  rw [noteRecorded] at hslot
  split_ifs at hslot with hfound
  · obtain ⟨j, hj⟩ := List.mem_iff_getElem?.mp hslot
    obtain ⟨found, hfound, hevent⟩ := List.any_eq_true.mp hfound
    set i := slots.findIdx fun slot ↦ slot.event == event with hi
    have hlt : i < slots.length := List.findIdx_lt_length_of_exists ⟨found, hfound, hevent⟩
    have hat : (slots.map EventSlot.event)[i]? = some event := by
      rw [List.getElem?_map, List.getElem?_eq_getElem hlt]
      exact congrArg some (beq_iff_eq.mp (List.findIdx_getElem (w := hlt)))
    rw [List.getElem?_modify] at hj
    obtain ⟨old, hold, rfl⟩ := Option.map_eq_some_iff.mp hj
    have hmem := List.mem_of_getElem? hold
    -- Another slot of the event would be the one that was found.
    split_ifs with hij
    · subst hij
      rw [List.getElem?_map, hold] at hat
      exact Or.inl ⟨Option.some.inj hat, rfl, Or.inr ⟨old, hmem, Option.some.inj hat, rfl⟩⟩
    · refine Or.inr ⟨hmem, fun heq ↦ hij ?_⟩
      refine h i j event he hat ?_
      rw [List.getElem?_map, hold]
      exact congrArg some heq
  · rcases List.mem_or_eq_of_mem_set hslot with hmem | rfl
    · refine Or.inr ⟨hmem, fun heq ↦ hfound ?_⟩
      exact List.any_eq_true.mpr ⟨slot, hmem, beq_iff_eq.mpr heq⟩
    · exact Or.inl ⟨rfl, rfl, Or.inl rfl⟩

theorem mem_noteDestroyed {slots : List EventSlot} {event : CUevent} {slot : EventSlot}
    (hslot : slot ∈ noteDestroyed slots event) :
    slot = {} ∨ slot ∈ slots ∧ slot.event ≠ event := by
  obtain ⟨old, hold, rfl⟩ := List.mem_map.mp hslot
  split_ifs with hevent
  · exact Or.inl rfl
  · exact Or.inr ⟨hold, hevent⟩

/-- After results are noted, a slot is as it was but for its completion, which is its last record if
that was reported complete. -/
theorem mem_noteQueryResults {slots : List EventSlot} {results : List (BatchEntry × Bool)}
    {slot : EventSlot} (hslot : slot ∈ noteQueryResults slots results) :
    ∃ old ∈ slots, slot.event = old.event ∧ slot.recorded = old.recorded ∧
      (slot.completed = old.completed ∨ slot.completed = slot.recorded ∧ slot.recorded ≠ 0 ∧
        (⟨slot.event, slot.recorded⟩, true) ∈ results) := by
  induction results generalizing slots with
  | nil => exact ⟨slot, hslot, rfl, rfl, Or.inl rfl⟩
  | cons result results ih =>
    obtain ⟨mid, hmid, hevent, hrecorded, hcompleted⟩ := ih hslot
    change mid ∈ noteQueryResult slots result.1 result.2 at hmid
    have hstep : mid ∈ slots ∨ ∃ old ∈ slots, mid = { old with completed := old.recorded } ∧
        old.recorded ≠ 0 ∧ result = (⟨old.event, old.recorded⟩, true) := by
      rw [noteQueryResult] at hmid
      split_ifs at hmid with hskip
      · exact Or.inl hmid
      · rw [not_or, Bool.not_eq_false] at hskip
        obtain ⟨j, hj⟩ := List.mem_iff_getElem?.mp hmid
        rw [List.getElem?_modify] at hj
        obtain ⟨old, hold, rfl⟩ := Option.map_eq_some_iff.mp hj
        split_ifs with hij
        · obtain ⟨hlt, hget⟩ := List.getElem?_eq_some_iff.mp hold
          have hmatch := List.findIdx_getElem (w := hij ▸ hlt)
          rw [Bool.and_eq_true, beq_iff_eq, beq_iff_eq] at hmatch
          simp only [hij, hget] at hmatch
          refine Or.inr ⟨old, List.mem_of_getElem? hold, ?_, ?_, ?_⟩
          · show { old with completed := result.1.recorded } = _
            rw [hmatch.2]
          · exact hmatch.2 ▸ hskip.2
          · rw [hmatch.1, hmatch.2, ← hskip.1]
        · exact Or.inl (List.mem_of_getElem? hold)
    rcases hstep with hmem | ⟨old, hmem, rfl, hpos, rfl⟩
    · exact ⟨mid, hmem, hevent, hrecorded, hcompleted.imp_right fun ⟨hdone, hne, hresult⟩ ↦
        ⟨hdone, hne, List.mem_cons_of_mem _ hresult⟩⟩
    · refine ⟨old, hmem, hevent, hrecorded, Or.inr ?_⟩
      rcases hcompleted with hdone | ⟨hdone, hne, hresult⟩
      · exact ⟨hdone.trans hrecorded.symm, hrecorded ▸ hpos,
          hevent ▸ hrecorded ▸ List.mem_cons_self⟩
      · exact ⟨hdone, hne, List.mem_cons_of_mem _ hresult⟩

/-! ## Batches -/

theorem mem_of_find?_event {slots : List EventSlot} {event : CUevent} {slot : EventSlot}
    (h : (slots.find? fun slot ↦ slot.event == event) = some slot) :
    slot ∈ slots ∧ slot.event = event := by
  rw [List.find?_eq_some_iff_append] at h
  obtain ⟨hevent, before, after, rfl, -⟩ := h
  exact ⟨List.mem_append_right _ List.mem_cons_self, beq_iff_eq.mp hevent⟩

/-- An answer from the table is about an event whose last record is reported complete. -/
theorem collectQueryBatch_eq_none {slots : List EventSlot} {copiesPending : Bool}
    {primary : CUevent} {conn : ℕ} {resolver : CUevent → ℕ}
    (h : collectQueryBatch slots copiesPending primary conn resolver = none) :
    copiesPending = false ∧ ∃ slot ∈ slots, slot.event = primary ∧
      slot.recorded = slot.completed := by
  rw [collectQueryBatch] at h
  split at h
  next slot hslot =>
    obtain ⟨hmem, hevent⟩ := mem_of_find?_event hslot
    by_cases hboth : copiesPending = false ∧ slot.recorded = slot.completed
    · exact ⟨hboth.1, slot, hmem, hevent, hboth.2⟩
    · rw [if_neg hboth] at h
      exact nomatch h
  next => exact nomatch h

/-- What a batch asks about is what the table has; the other events are on the connection. -/
theorem mem_collectQueryBatch {slots : List EventSlot} {copiesPending : Bool}
    {primary : CUevent} {conn : ℕ} {resolver : CUevent → ℕ} {batch : List BatchEntry}
    (h : collectQueryBatch slots copiesPending primary conn resolver = some batch)
    {entry : BatchEntry} (hentry : entry ∈ batch) :
    (entry.event = primary ∨ resolver entry.event = conn) ∧
      (entry.recorded ≠ 0 → ∃ slot ∈ slots, slot.event = entry.event ∧
        slot.recorded = entry.recorded) := by
  have hothers : ∀ {r : ℕ}, entry ∈ (⟨primary, r⟩ :: otherEvents slots primary conn resolver) →
      (r ≠ 0 → ∃ slot ∈ slots, slot.event = primary ∧ slot.recorded = r) →
      (entry.event = primary ∨ resolver entry.event = conn) ∧
        (entry.recorded ≠ 0 → ∃ slot ∈ slots, slot.event = entry.event ∧
          slot.recorded = entry.recorded) := by
    intro r hmem hprimary
    rcases List.mem_cons.mp hmem with rfl | hmem
    · exact ⟨Or.inl rfl, hprimary⟩
    · obtain ⟨slot, hslot, rfl⟩ := List.mem_map.mp hmem
      obtain ⟨hslot, hkept⟩ := List.mem_filter.mp (List.mem_of_mem_take hslot)
      rw [Bool.and_eq_true] at hkept
      exact ⟨Or.inr (beq_iff_eq.mp hkept.2), fun _ ↦ ⟨slot, hslot, rfl, rfl⟩⟩
  rw [collectQueryBatch] at h
  split at h
  next slot hslot =>
    obtain ⟨-, h⟩ := Option.ite_none_left_eq_some.mp h
    obtain rfl := Option.some.inj h
    obtain ⟨hmem, hevent⟩ := mem_of_find?_event hslot
    exact hothers hentry fun _ ↦ ⟨slot, hmem, hevent, rfl⟩
  next =>
    obtain rfl := Option.some.inj h
    exact hothers hentry fun hne ↦ absurd rfl hne

end Lupine
