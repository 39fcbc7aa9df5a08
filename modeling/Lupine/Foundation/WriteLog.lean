import Mathlib.Data.List.AList
import Mathlib.Data.List.Induction

/-!
# Logs of writes

A table that is only ever written entry by entry is given by the log of its writes, the oldest in
front: what a key holds is what the last write to it put there. A reader that is answered while the
log grows sees the table as it was at some point between its question and the answer.
-/

namespace Foundation

variable {κ β : Type*} {log : List (κ × β)} {start : ℕ} {k k' : κ} {x : β}

/-- Some write of the log from its write `start` on put this value under the key. -/
def WrittenSince (log : List (κ × β)) (start : ℕ) (k : κ) (x : β) : Prop :=
  ∃ n, start ≤ n ∧ log[n]? = some (k, x)

theorem WrittenSince.append (h : WrittenSince log start k x) (more : List (κ × β)) :
    WrittenSince (log ++ more) start k x := by
  obtain ⟨n, hstart, hn⟩ := h
  obtain ⟨hlt, -⟩ := List.getElem?_eq_some_iff.mp hn
  exact ⟨n, hstart, by rwa [List.getElem?_append_left hlt]⟩

theorem WrittenSince.concat (hstart : start ≤ log.length) (k : κ) (x : β) :
    WrittenSince (log ++ [(k, x)]) start k x :=
  ⟨log.length, hstart, List.getElem?_concat_length⟩

variable [DecidableEq κ]

/-- What the last write to a key put there. -/
def latest (log : List (κ × β)) (k : κ) : Option β := log.reverse.lookup k

@[simp] theorem latest_nil (k : κ) : latest ([] : List (κ × β)) k = none := rfl

theorem latest_concat (log : List (κ × β)) (k k' : κ) (x : β) :
    latest (log ++ [(k, x)]) k' = if k' = k then some x else latest log k' := by
  rw [latest, List.reverse_append, List.reverse_singleton, List.singleton_append, List.lookup_cons]
  split_ifs with h
  · rw [beq_iff_eq.mpr h]
  · rw [beq_eq_false_iff_ne.mpr h]
    rfl

/-- What a log says of a key was written to it. -/
theorem mem_of_latest {log : List (κ × β)} {k : κ} {x : β} (h : latest log k = some x) :
    (k, x) ∈ log := by
  induction log using List.reverseRecOn with
  | nil => exact nomatch h
  | append_singleton log entry ih =>
    rw [latest_concat] at h
    rw [List.mem_append, List.mem_singleton]
    split_ifs at h with hk
    · exact Or.inr (Prod.ext hk (Option.some.inj h).symm)
    · exact Or.inl (ih h)

/-- A table has every key as a log says. -/
def Logged (table : AList fun _ : κ ↦ β) (log : List (κ × β)) : Prop :=
  ∀ k, table.lookup k = latest log k

theorem logged_empty : Logged (∅ : AList fun _ : κ ↦ β) [] := fun _ ↦ rfl

theorem Logged.insert {table : AList fun _ : κ ↦ β} (h : Logged table log) (k : κ) (x : β) :
    Logged (table.insert k x) (log ++ [(k, x)]) := by
  intro k'
  rw [latest_concat]
  split_ifs with heq
  · rw [heq]
    exact AList.lookup_insert _
  · rw [AList.lookup_insert_ne heq]
    exact h k'

/-- A table has every key as a log says, of which some writes took the entry away. -/
def Recorded (table : AList fun _ : κ ↦ β) (log : List (κ × Option β)) : Prop :=
  ∀ k, table.lookup k = (latest log k).join

theorem recorded_empty : Recorded (∅ : AList fun _ : κ ↦ β) [] := fun _ ↦ rfl

theorem Recorded.insert {table : AList fun _ : κ ↦ β} {log : List (κ × Option β)}
    (h : Recorded table log) (k : κ) (x : β) :
    Recorded (table.insert k x) (log ++ [(k, some x)]) := by
  intro k'
  rw [latest_concat]
  split_ifs with heq
  · rw [heq]
    exact AList.lookup_insert _
  · rw [AList.lookup_insert_ne heq]
    exact h k'

theorem Recorded.erase {table : AList fun _ : κ ↦ β} {log : List (κ × Option β)}
    (h : Recorded table log) (k : κ) : Recorded (table.erase k) (log ++ [(k, none)]) := by
  intro k'
  rw [latest_concat]
  split_ifs with heq
  · rw [heq]
    exact AList.lookup_erase _ _
  · rw [AList.lookup_erase_ne heq]
    exact h k'

/-! ## What a reader may have seen

The point is a number of writes, so a value that was seen goes on to have been seen. -/

/-- At some point from its write `start` on, the log had this value for the key. -/
def SeenSince (log : List (κ × β)) (start : ℕ) (k : κ) (x : β) : Prop :=
  ∃ n, start ≤ n ∧ n ≤ log.length ∧ latest (log.take n) k = some x

theorem SeenSince.now (hstart : start ≤ log.length) (h : latest log k = some x) :
    SeenSince log start k x :=
  ⟨log.length, hstart, le_rfl, by rwa [List.take_length]⟩

theorem SeenSince.append (h : SeenSince log start k x) (more : List (κ × β)) :
    SeenSince (log ++ more) start k x := by
  obtain ⟨n, hstart, hn, hlatest⟩ := h
  refine ⟨n, hstart, ?_, ?_⟩
  · rw [List.length_append]
    exact Nat.le_add_right_of_le hn
  · rwa [List.take_append_of_le_length hn]

end Foundation
