import Mathlib.Data.List.Basic

/-!
# Buffers whose transfers run on

A transfer out of a buffer may go on long after the call that started it has returned, and that call
may report a failure that says nothing about the transfer. What is known is known through a marker
behind the transfers: when a marker that was set after them is seen to be reached, they are over.
The history of a buffer is the list of the calls made about it, the newest in front.

Being in doubt is a fold over the history, so that it can be evaluated; what it means is said by
`inDoubt_eq_false_iff`, with the marker that was reached and the part of the history before it.
-/

namespace Foundation

/-- The answer to the question whether a marker is reached. -/
inductive Progress where
  | reached
  | running
  | failed
  deriving DecidableEq, Repr

inductive BufferCall where
  | submit
  | mark (ok : Bool)
  | poll (answer : Progress)
  | unmark
  deriving DecidableEq, Repr

/-- The calls made about a buffer since it was allocated, the newest in front. -/
abbrev BufferHistory := List BufferCall

namespace BufferHistory

/-- A marker stands behind every transfer attempted so far, and no question about it has failed. -/
def marked : BufferHistory → Bool
  | [] => false
  | .mark ok :: _ => ok
  | .poll answer :: calls => answer != .failed && marked calls
  | .submit :: _ => false
  | .unmark :: _ => false

/-- A transfer was attempted since the transfers were last known to be over. -/
def inDoubt : BufferHistory → Bool
  | [] => false
  | .submit :: _ => true
  | .poll answer :: calls => inDoubt calls && !(answer == .reached && marked calls)
  | .mark _ :: calls => inDoubt calls
  | .unmark :: calls => inDoubt calls

variable {calls : BufferHistory}

@[simp] theorem marked_mark (ok : Bool) : marked (.mark ok :: calls) = ok := rfl

@[simp] theorem marked_running : marked (.poll .running :: calls) = marked calls := by
  simp [marked]

@[simp] theorem inDoubt_nil : inDoubt [] = false := rfl

@[simp] theorem inDoubt_mark (ok : Bool) : inDoubt (.mark ok :: calls) = inDoubt calls := rfl

@[simp] theorem inDoubt_unmark : inDoubt (.unmark :: calls) = inDoubt calls := rfl

theorem inDoubt_reached (h : marked calls) : inDoubt (.poll .reached :: calls) = false := by
  simp [inDoubt, h]

theorem inDoubt_poll (answer : Progress) (h : inDoubt calls = false) :
    inDoubt (.poll answer :: calls) = false := by
  simp [inDoubt, h]

/-! ## Histories that are not in doubt

The history is cut where the marker was seen to be reached. -/

theorem inDoubt_of_submit_notMem (h : .submit ∉ calls) : inDoubt calls = false := by
  induction calls with
  | nil => exact inDoubt_nil
  | cons call calls ih =>
    have hrest := ih fun hmem ↦ h (List.mem_cons_of_mem _ hmem)
    cases call with
    | submit => exact absurd List.mem_cons_self h
    | mark ok => exact (inDoubt_mark ok).trans hrest
    | unmark => exact inDoubt_unmark.trans hrest
    | poll answer => exact inDoubt_poll answer hrest

/-- **Not in doubt.** Either no transfer was ever attempted, or a marker behind all of them was seen
to be reached and none was attempted since. -/
theorem inDoubt_eq_false_iff :
    inDoubt calls = false ↔ .submit ∉ calls ∨ ∃ newer older,
      calls = newer ++ .poll .reached :: older ∧ marked older ∧ .submit ∉ newer := by
  constructor
  · intro h
    induction calls with
    | nil => exact Or.inl (by simp)
    | cons call calls ih =>
      -- a call that is no submission leaves the older proof in force
      have hkeep : call ≠ .submit → inDoubt calls = false → .submit ∉ call :: calls ∨
          ∃ newer older, call :: calls = newer ++ .poll .reached :: older ∧ marked older ∧
            .submit ∉ newer := by
        intro hne hcalls
        rcases ih hcalls with hnone | ⟨newer, older, rfl, hmarked, hnewer⟩
        · exact Or.inl (by simp [hnone, hne.symm])
        · exact Or.inr ⟨call :: newer, older, rfl, hmarked, by simp [hnewer, hne.symm]⟩
      cases call with
      | submit => exact absurd h (by simp [inDoubt])
      | mark ok => exact hkeep (by simp) h
      | unmark => exact hkeep (by simp) h
      | poll answer =>
        rw [inDoubt, Bool.and_eq_false_iff] at h
        rcases h with h | h
        · exact hkeep (by simp) h
        · rw [Bool.not_eq_false', Bool.and_eq_true, beq_iff_eq] at h
          obtain ⟨rfl, hmarked⟩ := h
          exact Or.inr ⟨[], calls, rfl, hmarked, by simp⟩
  · rintro (hnone | ⟨newer, older, rfl, hmarked, hnewer⟩)
    · exact inDoubt_of_submit_notMem hnone
    · induction newer with
      | nil => exact inDoubt_reached hmarked
      | cons call newer ih =>
        have hrest := ih fun hmem ↦ hnewer (List.mem_cons_of_mem _ hmem)
        cases call with
        | submit => exact absurd List.mem_cons_self hnewer
        | mark ok => exact hrest
        | unmark => exact hrest
        | poll answer => exact inDoubt_poll answer hrest

end BufferHistory

end Foundation
