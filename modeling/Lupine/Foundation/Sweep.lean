import Mathlib.Algebra.BigOperators.Group.List.Basic
import Mathlib.Algebra.GroupWithZero.Nat
import Mathlib.Data.List.Basic

/-!
# Sweeps

A loop over a container that rewrites each element or erases it, and meanwhile works on a state that
all elements share. The index counts the elements visited, so that what a call answers can depend on
it.
-/

namespace Foundation

variable {α σ : Type*}

/-- The sweep over a list: `f` gives what becomes of an element, `none` when it is erased. -/
def sweep (f : ℕ → α → σ → Option α × σ) : ℕ → List α → σ → List α × σ
  | _, [], s => ([], s)
  | k, a :: as, s =>
    ((f k a s).1.toList ++ (sweep f (k + 1) as (f k a s).2).1,
      (sweep f (k + 1) as (f k a s).2).2)

section Sweep

variable {f : ℕ → α → σ → Option α × σ} {l : List α} {k : ℕ} {s : σ}

/-- **Invariants of a sweep.** What every visit keeps of the shared state, and gives of the element
it leaves, holds after the sweep. -/
theorem sweep_invariant {I : σ → Prop} {P : α → Prop}
    (hvisit : ∀ i, ∀ a ∈ l, ∀ s', I s' → (∀ b, (f i a s').1 = some b → P b) ∧ I (f i a s').2)
    (hs : I s) : (∀ b ∈ (sweep f k l s).1, P b) ∧ I (sweep f k l s).2 := by
  induction l generalizing k s with
  | nil => exact ⟨fun b hb ↦ absurd hb List.not_mem_nil, hs⟩
  | cons a as ih =>
    obtain ⟨hleft, hs'⟩ := hvisit k a List.mem_cons_self s hs
    obtain ⟨hrest, hend⟩ := ih (k := k + 1)
      (fun i a' ha' ↦ hvisit i a' (List.mem_cons_of_mem a ha')) hs'
    refine ⟨fun b hb ↦ ?_, hend⟩
    rw [sweep, List.mem_append, Option.mem_toList] at hb
    rcases hb with hb | hb
    · exact hleft b hb
    · exact hrest b hb

theorem mem_sweep_of_fixed {a : α} (ha : a ∈ l) (hfix : ∀ i s', (f i a s').1 = some a) :
    a ∈ (sweep f k l s).1 := by
  induction l generalizing k s with
  | nil => exact absurd ha List.not_mem_nil
  | cons b as ih =>
    rw [sweep, List.mem_append, Option.mem_toList]
    rcases List.mem_cons.mp ha with rfl | ha
    · exact Or.inl (hfix k s)
    · exact Or.inr (ih ha)

/-- When what an element costs is either kept or spent on the shared state, the same holds of the
whole sweep. -/
theorem sweep_spends {cost : α → ℕ} {Spent : ℕ → σ → σ → Prop} (hzero : ∀ s', Spent 0 s' s')
    (hadd : ∀ {m n s₁ s₂ s₃}, Spent m s₁ s₂ → Spent n s₂ s₃ → Spent (m + n) s₁ s₃)
    (hvisit : ∀ i, ∀ a ∈ l, ∀ s', ∃ n,
      cost a = ((f i a s').1.toList.map cost).sum + n ∧ Spent n s' (f i a s').2) :
    ∃ n, (l.map cost).sum = ((sweep f k l s).1.map cost).sum + n ∧
      Spent n s (sweep f k l s).2 := by
  induction l generalizing k s with
  | nil => exact ⟨0, rfl, hzero s⟩
  | cons a as ih =>
    obtain ⟨m, hm, hspent⟩ := hvisit k a List.mem_cons_self s
    obtain ⟨n, hn, hrest⟩ := ih (k := k + 1) (s := (f k a s).2)
      fun i a' ha' ↦ hvisit i a' (List.mem_cons_of_mem a ha')
    refine ⟨m + n, ?_, hadd hspent hrest⟩
    rw [List.map_cons, List.sum_cons, sweep, List.map_append, List.sum_append, hm, hn]
    omega

end Sweep

/-! ## Sweeps that erase nothing

The elements stay at their indices, so the sweep can be compared with the list place by place. -/

/-- The sweep that rewrites every element in its place. -/
def rewriteAll (g : ℕ → α → σ → α × σ) : ℕ → List α → σ → List α × σ :=
  sweep fun k a s ↦ (some (g k a s).1, (g k a s).2)

variable {g : ℕ → α → σ → α × σ} {l : List α} {k : ℕ} {s : σ}

theorem rewriteAll_invariant {I : σ → Prop} {P : α → Prop}
    (hvisit : ∀ i, ∀ a ∈ l, ∀ s', I s' → P (g i a s').1 ∧ I (g i a s').2) (hs : I s) :
    (∀ b ∈ (rewriteAll g k l s).1, P b) ∧ I (rewriteAll g k l s).2 := by
  refine sweep_invariant (fun i a ha s' hs' ↦ ?_) hs
  obtain ⟨hb, hend⟩ := hvisit i a ha s' hs'
  exact ⟨fun b heq ↦ Option.some.inj heq ▸ hb, hend⟩

theorem rewriteAll_spends {cost : α → ℕ} {Spent : ℕ → σ → σ → Prop} (hzero : ∀ s', Spent 0 s' s')
    (hadd : ∀ {m n s₁ s₂ s₃}, Spent m s₁ s₂ → Spent n s₂ s₃ → Spent (m + n) s₁ s₃)
    (hvisit : ∀ i, ∀ a ∈ l, ∀ s', ∃ n,
      cost a = cost (g i a s').1 + n ∧ Spent n s' (g i a s').2) :
    ∃ n, (l.map cost).sum = ((rewriteAll g k l s).1.map cost).sum + n ∧
      Spent n s (rewriteAll g k l s).2 := by
  refine sweep_spends hzero hadd fun i a ha s' ↦ ?_
  obtain ⟨n, hcost, hspent⟩ := hvisit i a ha s'
  exact ⟨n, by simpa using hcost, hspent⟩

theorem getElem?_rewriteAll_of_fixed {i : ℕ} {a : α} (ha : l[i]? = some a)
    (hfix : ∀ j s', (g j a s').1 = a) : (rewriteAll g k l s).1[i]? = some a := by
  induction l generalizing k s i with
  | nil => exact absurd ha (by simp)
  | cons b as ih =>
    cases i with
    | zero =>
      obtain rfl : b = a := Option.some.inj ha
      exact congrArg some (hfix k s)
    | succ i => exact ih ha

end Foundation
