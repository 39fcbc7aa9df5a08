import Mathlib.Algebra.BigOperators.Group.Finset.Basic
import Mathlib.Algebra.Order.BigOperators.Group.Finset
import Mathlib.Data.Fintype.BigOperators

/-!
# Totals over threads

A counter that many threads change in separate steps equals what they have contributed so far. What
a thread has contributed is read off where it is in its program: each phase has a weight, and a
counter is its value at rest plus the total of the weights. A step of one thread changes the total
by the difference of two weights.
-/

namespace Foundation

variable {ι β : Type*} [Fintype ι] [DecidableEq ι] {weight : β → ℤ} {phase : ι → β} {t : ι} {x : β}

/-- The sum of the weights of where the threads are. -/
def total (weight : β → ℤ) (phase : ι → β) : ℤ := ∑ t, weight (phase t)

omit [DecidableEq ι] in
theorem total_eq_zero (h : ∀ t, weight (phase t) = 0) : total weight phase = 0 :=
  Finset.sum_eq_zero fun t _ ↦ h t

theorem total_eq_add (weight : β → ℤ) (phase : ι → β) (t : ι) :
    total weight phase = weight (phase t) + ∑ u ∈ Finset.univ.erase t, weight (phase u) :=
  (Finset.add_sum_erase _ _ (Finset.mem_univ t)).symm

/-- **A step of one thread.** -/
theorem total_update (weight : β → ℤ) (phase : ι → β) (t : ι) (x : β) :
    total weight (Function.update phase t x)
      = total weight phase + (weight x - weight (phase t)) := by
  have hothers : ∑ u ∈ Finset.univ.erase t, weight (Function.update phase t x u)
      = ∑ u ∈ Finset.univ.erase t, weight (phase u) := by
    refine Finset.sum_congr rfl fun u hu ↦ ?_
    rw [Function.update_of_ne (Finset.ne_of_mem_erase hu)]
  rw [total_eq_add weight _ t, total_eq_add weight phase t, hothers, Function.update_self]
  omega

/-- Only one thread counts. -/
theorem total_eq_of_others (h : ∀ u, u ≠ t → weight (phase u) = 0) :
    total weight phase = weight (phase t) := by
  rw [total_eq_add weight phase t, Finset.sum_eq_zero, add_zero]
  exact fun u hu ↦ h u (Finset.ne_of_mem_erase hu)

omit [DecidableEq ι] in
theorem total_mono {weight' : β → ℤ} (h : ∀ x, weight x ≤ weight' x) :
    total weight phase ≤ total weight' phase :=
  Finset.sum_le_sum fun t _ ↦ h (phase t)

omit [DecidableEq ι] in
theorem total_nonneg (hweight : ∀ x, 0 ≤ weight x) : 0 ≤ total weight phase :=
  Finset.sum_nonneg fun t _ ↦ hweight (phase t)

/-- Where no weight is negative, a thread counts for no more than the total. -/
theorem le_total (hweight : ∀ u, 0 ≤ weight (phase u)) (t : ι) :
    weight (phase t) ≤ total weight phase := by
  rw [total_eq_add weight phase t]
  exact le_add_of_nonneg_right (Finset.sum_nonneg fun u _ ↦ hweight u)

theorem add_le_total (hweight : ∀ u, 0 ≤ weight (phase u)) {u : ι} (hne : u ≠ t) :
    weight (phase t) + weight (phase u) ≤ total weight phase := by
  rw [total_eq_add weight phase t]
  refine add_le_add_right ?_ _
  exact Finset.single_le_sum (f := fun u ↦ weight (phase u)) (fun u _ ↦ hweight u)
    (Finset.mem_erase.mpr ⟨hne, Finset.mem_univ u⟩)

end Foundation
